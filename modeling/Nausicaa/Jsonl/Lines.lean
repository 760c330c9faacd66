import Mathlib.Data.List.Basic

/-! # Delimited lines

A sequence of items read line by line: every line keeps the delimiter it ends with,
and only the last one can lack it.  Every sequence is some terminated lines and a rest
without a delimiter (`exists_terminated`), and reading it gives exactly these back
(`lines_terminated`), so a fact about a reader need only be proved for such sequences. -/

namespace Nausicaa.Jsonl

variable {α : Type} {delimiter : α}

/-- What reading up to and including `delimiter` gives until nothing is left. -/
def lines [DecidableEq α] (delimiter : α) : List α → List (List α)
  | [] => []
  | item :: items =>
    if item = delimiter then [item] :: lines delimiter items
    else match lines delimiter items with
      | [] => [[item]]
      | line :: rest => (item :: line) :: rest

/-- The bodies, each with its delimiter. -/
def terminated (delimiter : α) (bodies : List (List α)) : List α :=
  (bodies.map (· ++ [delimiter])).flatten

section Terminated

variable (bodies more : List (List α)) (body : List α)

@[simp] theorem terminated_nil : terminated delimiter ([] : List (List α)) = [] := rfl

@[simp] theorem terminated_cons :
    terminated delimiter (body :: bodies) = body ++ delimiter :: terminated delimiter bodies := by
  simp [terminated]

theorem terminated_append : terminated delimiter (bodies ++ more) =
    terminated delimiter bodies ++ terminated delimiter more := by
  simp [terminated]

theorem terminated_concat : terminated delimiter (bodies ++ [body]) =
    terminated delimiter bodies ++ body ++ [delimiter] := by
  simp [terminated]

theorem getLast?_terminated {bodies : List (List α)} (nonempty : bodies ≠ []) :
    (terminated delimiter bodies).getLast? = some delimiter := by
  obtain ⟨init, last, rfl⟩ := (List.eq_nil_or_concat bodies).resolve_left nonempty
  rw [List.concat_eq_append, terminated_concat, List.getLast?_append]
  rfl

end Terminated

/-- Nothing is left open behind the last delimiter. -/
def Ended (delimiter : α) (items : List α) : Prop :=
  items = [] ∨ items.getLast? = some delimiter

instance [DecidableEq α] (items : List α) : Decidable (Ended delimiter items) :=
  inferInstanceAs (Decidable (_ ∨ _))

theorem Ended.concat (items : List α) : Ended delimiter (items ++ [delimiter]) :=
  .inr List.getLast?_concat

/-- Nothing ends with a part of a line. -/
theorem not_ended_part {body : List α} (clean : delimiter ∉ body) (before : List α)
    {written : Nat} (some : 0 < written) (missing : written < (body ++ [delimiter]).length) :
    ¬ Ended delimiter (before ++ (body ++ [delimiter]).take written) := by
  rw [List.length_append, List.length_singleton] at missing
  rw [List.take_append_of_le_length (by omega)]
  have nonempty : body.take written ≠ [] := by
    rw [Ne, List.take_eq_nil_iff]
    intro none
    obtain zero | empty := none
    · omega
    · rw [empty, List.length_nil] at missing
      omega
  intro ended
  obtain empty | last := ended
  · exact nonempty (List.append_eq_nil_iff.mp empty).2
  · rw [List.getLast?_append_of_ne_nil _ nonempty] at last
    exact clean (List.mem_of_mem_take (List.mem_of_getLast? last))

/-! ## Reading -/

section Reading

variable [DecidableEq α]

theorem lines_body {body : List α} (clean : delimiter ∉ body) (rest : List α) :
    lines delimiter (body ++ delimiter :: rest) = (body ++ [delimiter]) :: lines delimiter rest := by
  induction body with
  | nil => simp [lines]
  | cons item body ih =>
    rw [List.mem_cons, not_or] at clean
    obtain ⟨other, clean⟩ := clean
    rw [List.cons_append, lines, if_neg (Ne.symm other), ih clean]
    rfl

theorem lines_rest {last : List α} (clean : delimiter ∉ last) (nonempty : last ≠ []) :
    lines delimiter last = [last] := by
  induction last with
  | nil => exact absurd rfl nonempty
  | cons item last ih =>
    rw [List.mem_cons, not_or] at clean
    obtain ⟨other, clean⟩ := clean
    rw [lines, if_neg (Ne.symm other)]
    cases last with
    | nil => rfl
    | cons next last => rw [ih clean (List.cons_ne_nil _ _)]

/-- The lines of terminated bodies and a rest are these bodies and the rest. -/
theorem lines_terminated {bodies : List (List α)} {last : List α}
    (clean : ∀ body ∈ bodies, delimiter ∉ body) (cleanLast : delimiter ∉ last) :
    lines delimiter (terminated delimiter bodies ++ last) =
      bodies.map (· ++ [delimiter]) ++ if last = [] then [] else [last] := by
  induction bodies with
  | nil =>
    by_cases none : last = []
    · simp [none, lines]
    · simpa [none] using lines_rest cleanLast none
  | cons body bodies ih =>
    have rest := ih fun other member => clean other (List.mem_cons_of_mem _ member)
    rw [terminated_cons, List.append_assoc, List.cons_append,
      lines_body (clean body List.mem_cons_self), rest]
    rfl

/-- Every sequence is terminated bodies and a rest without a delimiter. -/
theorem exists_terminated (delimiter : α) (items : List α) :
    ∃ bodies last, items = terminated delimiter bodies ++ last ∧
      (∀ body ∈ bodies, delimiter ∉ body) ∧ delimiter ∉ last := by
  induction items with
  | nil => exact ⟨[], [], rfl, by simp, by simp⟩
  | cons item items ih =>
    obtain ⟨bodies, last, rfl, clean, cleanLast⟩ := ih
    by_cases same : item = delimiter
    · subst same
      refine ⟨[] :: bodies, last, by simp, ?_, cleanLast⟩
      intro body member
      cases List.mem_cons.mp member with
      | inl first => rw [first]; exact List.not_mem_nil
      | inr later => exact clean body later
    · cases bodies with
      | nil =>
        refine ⟨[], item :: last, rfl, by simp, ?_⟩
        simp [cleanLast, Ne.symm same]
      | cons body bodies =>
        refine ⟨(item :: body) :: bodies, last, by simp, ?_, cleanLast⟩
        intro body' member
        cases List.mem_cons.mp member with
        | inl first =>
          rw [first]
          simp [clean body List.mem_cons_self, Ne.symm same]
        | inr later => exact clean body' (List.mem_cons_of_mem _ later)

/-- Behind an end, reading starts afresh. -/
theorem lines_append {items : List α} (ended : Ended delimiter items) (rest : List α) :
    lines delimiter (items ++ rest) = lines delimiter items ++ lines delimiter rest := by
  induction items with
  | nil => rfl
  | cons item items ih =>
    by_cases same : item = delimiter
    · have behind : Ended delimiter items := by
        cases items with
        | nil => exact .inl rfl
        | cons next items =>
          rw [Ended, List.getLast?_cons_cons] at ended
          exact .inr (ended.resolve_left (List.cons_ne_nil _ _))
      rw [List.cons_append, lines, lines, if_pos same, if_pos same, ih behind, List.cons_append]
    · cases items with
      | nil =>
        obtain none | last := ended
        · cases none
        · exact absurd (Option.some.inj last) same
      | cons next items =>
        have behind : Ended delimiter (next :: items) := by
          rw [Ended, List.getLast?_cons_cons] at ended
          exact .inr (ended.resolve_left (List.cons_ne_nil _ _))
        rw [List.cons_append, lines, lines, if_neg same, if_neg same, ih behind]
        cases shown : lines delimiter (next :: items) with
        | nil =>
          -- A nonempty input has a line.
          rw [lines] at shown
          split at shown
          · cases shown
          · split at shown <;> cases shown
        | cons line others => rfl

/-- The first line: it has items, and a delimiter only at its end unless nothing is left. -/
theorem lines_cons {items line : List α} {others : List (List α)}
    (read : lines delimiter items = line :: others) : ∃ rest, items = line ++ rest ∧
      lines delimiter rest = others ∧ line ≠ [] ∧ delimiter ∉ line.dropLast ∧
      (line.getLast? = some delimiter ∨ rest = []) := by
  obtain ⟨bodies, last, rfl, clean, cleanLast⟩ := exists_terminated delimiter items
  cases bodies with
  | nil =>
    by_cases none : last = []
    · rw [none] at read
      cases read
    · rw [terminated_nil, List.nil_append, lines_rest cleanLast none] at read
      cases read
      exact ⟨[], by simp, rfl, none, fun member => cleanLast (List.dropLast_subset _ member),
        .inr rfl⟩
  | cons body bodies =>
    rw [terminated_cons, List.append_assoc, List.cons_append,
      lines_body (clean body List.mem_cons_self)] at read
    cases read
    refine ⟨terminated delimiter bodies ++ last, by simp, rfl, by simp, ?_, ?_⟩
    · rw [List.dropLast_concat]
      exact clean body List.mem_cons_self
    · exact .inl List.getLast?_concat

end Reading

end Nausicaa.Jsonl
