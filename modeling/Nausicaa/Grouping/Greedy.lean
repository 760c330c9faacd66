import Mathlib.Data.List.Infix

/-! # Greedy groups

A list is cut into groups from the left: an item takes as many of the items behind it as it expects,
as long as they can follow.  Cutting goes on in the same way behind every group (`groups_drop`), and an
item is never cut off from what follows it (`drop_together`). -/

namespace Nausicaa.Grouping

variable {α : Type} (expects : α → Nat) (follows : α → Bool)

/-- The group that is being filled, and the groups behind it. -/
def collect : (group : List α) → (missing : Nat) → List α → List (List α)
  | group, _, [] => [group]
  | group, 0, item :: rest => group :: collect [item] (expects item) rest
  | group, missing + 1, item :: rest =>
    if follows item then collect (group ++ [item]) missing rest
    else group :: collect [item] (expects item) rest

def groups : List α → List (List α)
  | [] => []
  | item :: rest => collect expects follows [item] (expects item) rest

/-- Followers that take all that is expected, or all that there are in front of the rest. -/
structure Fills (missing : Nat) (followers rest : List α) : Prop where
  follow : ∀ follower ∈ followers, follows follower = true
  bounded : followers.length ≤ missing
  greedy : followers.length = missing ∨ ∀ next ∈ rest.head?, follows next = false

variable {expects follows}
variable {item : α} {items before after rest followers group : List α} {missing kept : Nat}

theorem collect_fills (group : List α) (missing : Nat) (items : List α) :
    ∃ followers rest, items = followers ++ rest ∧ Fills follows missing followers rest ∧
      collect expects follows group missing items =
        (group ++ followers) :: groups expects follows rest := by
  induction items generalizing group missing with
  | nil => exact ⟨[], [], rfl, ⟨by simp, Nat.zero_le _, .inr (by simp)⟩, by simp [collect, groups]⟩
  | cons item items ih =>
    cases missing with
    | zero => exact ⟨[], item :: items, rfl, ⟨by simp, le_rfl, .inl rfl⟩, by simp [collect, groups]⟩
    | succ missing =>
      by_cases joins : follows item = true
      · obtain ⟨followers, rest, rfl, fills, same⟩ := ih (group ++ [item]) missing
        refine ⟨item :: followers, rest, rfl, ⟨?_, ?_, ?_⟩, ?_⟩
        · simpa [joins] using fills.follow
        · simpa using fills.bounded
        · simpa using fills.greedy
        · simp [collect, joins, same]
      · refine ⟨[], item :: items, rfl, ⟨by simp, Nat.zero_le _, .inr ?_⟩, ?_⟩
        · simpa using joins
        · simp [collect, groups, joins]

variable (expects follows) in
/-- Groups are found one after the other. -/
theorem groups_induct {motive : List α → Prop} (nil : motive [])
    (cons : ∀ item followers rest, Fills follows (expects item) followers rest →
      groups expects follows (item :: (followers ++ rest)) =
        (item :: followers) :: groups expects follows rest →
      motive rest → motive (item :: (followers ++ rest)))
    (items : List α) : motive items := by
  obtain ⟨length, bounded⟩ : ∃ length, items.length ≤ length := ⟨_, le_rfl⟩
  induction length generalizing items with
  | zero =>
    rw [List.length_eq_zero_iff.mp (Nat.le_zero.mp bounded)]
    exact nil
  | succ length ih =>
    cases items with
    | nil => exact nil
    | cons item items =>
      obtain ⟨followers, rest, rfl, fills, same⟩ :=
        @collect_fills α expects follows [item] (expects item) items
      refine cons item followers rest fills (by rw [groups, same]; rfl) (ih rest ?_)
      simp only [List.length_cons, List.length_append] at bounded
      omega

@[simp] theorem groups_flatten (items : List α) :
    (groups expects follows items).flatten = items := by
  induction items using groups_induct expects follows with
  | nil => rfl
  | cons item followers rest fills same ih => simp [same, ih]

/-- A full group in front is the first one. -/
theorem groups_full (follow : ∀ follower ∈ followers, follows follower = true)
    (full : followers.length = expects item) :
    groups expects follows (item :: (followers ++ rest)) =
      (item :: followers) :: groups expects follows rest := by
  have filled : ∀ group, collect expects follows group followers.length (followers ++ rest) =
      (group ++ followers) :: groups expects follows rest := by
    clear full
    induction followers with
    | nil => intro group; cases rest <;> simp [collect, groups]
    | cons follower followers ih =>
      intro group
      have joins := follow follower List.mem_cons_self
      have later := ih (fun other member => follow other (List.mem_cons_of_mem _ member))
      simp [collect, joins, later]
  rw [groups, ← full, filled]
  rfl

/-- The groups of what is behind some of the groups are the others. -/
theorem groups_drop (items : List α) (count : Nat) :
    groups expects follows ((groups expects follows items).drop count).flatten =
      (groups expects follows items).drop count := by
  induction items using groups_induct expects follows
    generalizing count with
  | nil => simp [groups]
  | cons item followers rest fills same ih =>
    cases count with
    | zero => simp
    | succ count => simpa [same] using ih count

theorem drop_suffix (items : List α) (count : Nat) :
    ((groups expects follows items).drop count).flatten <:+ items := by
  have split := congrArg List.flatten
    (List.take_append_drop count (groups expects follows items))
  rw [List.flatten_append, groups_flatten] at split
  exact ⟨_, split⟩

/-- What can follow, and is not too much, is in the group. -/
theorem Fills.takes {followers' : List α} (fills : Fills follows missing followers rest)
    (split : followers ++ rest = followers' ++ after)
    (follow : ∀ follower ∈ followers', follows follower = true)
    (bounded : followers'.length ≤ missing) : rest <:+ after := by
  obtain ⟨more, rfl, rfl⟩ | ⟨more, rfl, rfl⟩ := List.append_eq_append_iff.mp split
  · obtain full | stops := fills.greedy
    · -- Nothing more fits into a full group.
      simp only [List.length_append] at bounded
      have none : more = [] := List.length_eq_zero_iff.mp (by omega)
      simp [none]
    · cases more with
      | nil => simp
      | cons next more =>
        have other := stops next (by simp)
        rw [follow next (by simp)] at other
        cases other
  · exact List.suffix_append _ _

/-- Either an item and what follows it are both behind the cut, or neither is. -/
theorem drop_together (count : Nat) (split : items = before ++ item :: (followers ++ after))
    (starts : follows item = false) (follow : ∀ follower ∈ followers, follows follower = true)
    (bounded : followers.length ≤ expects item) :
    ((groups expects follows items).drop count).flatten <:+ after ∨
      item :: (followers ++ after) <:+ ((groups expects follows items).drop count).flatten := by
  induction items using groups_induct expects follows
    generalizing count before with
  | nil => simp at split
  | cons first others rest fills same ih =>
    cases count with
    | zero =>
      right
      rw [List.drop_zero, groups_flatten, split]
      exact List.suffix_append _ _
    | succ count =>
      rw [same, List.drop_succ_cons]
      cases before with
      | nil =>
        obtain ⟨rfl, tails⟩ := List.cons.inj split
        exact .inl ((drop_suffix rest count).trans (fills.takes tails follow bounded))
      | cons head before =>
        obtain ⟨rfl, tails⟩ := List.cons.inj split
        obtain ⟨more, rfl, behind⟩ | ⟨more, rfl, behind⟩ := List.append_eq_append_iff.mp tails
        · exact ih count behind
        · cases more with
          | nil =>
            have here : rest = [] ++ item :: (followers ++ after) := behind.symm
            exact ih count here
          | cons other more =>
            -- The item itself would follow the first one.
            obtain ⟨rfl, _⟩ := List.cons.inj behind
            have joined := fills.follow item (by simp)
            rw [starts] at joined
            cases joined

/-! ## The last groups -/

variable (expects follows)

/-- The last groups, and how many are left out. -/
def lastGroups (items : List α) (maximum : Nat) : List α × Nat :=
  let found := groups expects follows items
  let omitted := found.length - maximum
  ((found.drop omitted).flatten, omitted)

variable {expects follows} {maximum : Nat}

theorem lastGroups_groups (items : List α) (maximum : Nat) :
    groups expects follows (lastGroups expects follows items maximum).1 =
      (groups expects follows items).drop ((groups expects follows items).length - maximum) :=
  groups_drop items _

/-- To keep some of the groups, and of these some, is to keep the smaller number. -/
theorem lastGroups_again (items : List α) (maximum maximum' : Nat) :
    (lastGroups expects follows (lastGroups expects follows items maximum).1 maximum').1 =
      (lastGroups expects follows items (min maximum maximum')).1 := by
  conv => lhs; rw [lastGroups]
  rw [lastGroups_groups]
  simp only [List.length_drop, List.drop_drop, lastGroups]
  congr 2
  omega

end Nausicaa.Grouping
