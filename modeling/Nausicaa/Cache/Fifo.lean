import Mathlib.Data.List.Nodup
import Std.Data.TreeMap.Lemmas

/-! # A bounded cache

A cache that forgets its oldest entry when it holds too many.  As long as no key enters it
twice it holds exactly the last entries of the log of everything that entered it
(`Keeps.push`). -/

namespace Nausicaa.Cache

open Std (TreeMap TransOrd LawfulEqOrd)

structure Fifo (κ α : Type) [Ord κ] where
  order : List κ
  entries : TreeMap κ α

variable {κ α : Type} [Ord κ]

namespace Fifo

def empty : Fifo κ α := ⟨[], ∅⟩

/-- Forgets from the front of the queue while it is longer than `maximum`. -/
def evict (maximum : Nat) : List κ → TreeMap κ α → Fifo κ α
  | [], entries => ⟨[], entries⟩
  | expired :: order, entries =>
    if (expired :: order).length > maximum then evict maximum order (entries.erase expired)
    else ⟨expired :: order, entries⟩

def push (maximum : Nat) (key : κ) (value : α) (cache : Fifo κ α) : Fifo κ α :=
  evict maximum (cache.order ++ [key]) (cache.entries.insert key value)

end Fifo

/-- The last `maximum` items. -/
def recent {β : Type} (maximum : Nat) (log : List β) : List β := log.drop (log.length - maximum)

section Recent

variable {β : Type} {maximum : Nat} {log : List β} {first item : β}

theorem recent_map {γ : Type} (f : β → γ) (maximum : Nat) (log : List β) :
    recent maximum (log.map f) = (recent maximum log).map f := by
  simp [recent, List.map_drop]

theorem recent_of_le (few : log.length ≤ maximum) : recent maximum log = log := by
  simp [recent, Nat.sub_eq_zero_of_le few]

theorem recent_cons (many : maximum < (first :: log).length) :
    recent maximum (first :: log) = recent maximum log := by
  rw [List.length_cons] at many
  have more : (first :: log).length - maximum = log.length - maximum + 1 := by
    rw [List.length_cons]
    omega
  rw [recent, more, List.drop_succ_cons]
  rfl

/-- Only what is recent can be recent after one more item. -/
theorem recent_concat (maximum : Nat) (log : List β) (item : β) :
    recent maximum (recent maximum log ++ [item]) = recent maximum (log ++ [item]) := by
  induction log with
  | nil => simp [recent]
  | cons first log ih =>
    by_cases few : (first :: log).length ≤ maximum
    · rw [recent_of_le few]
    · rw [recent_cons (by omega), ih, List.cons_append, recent_cons]
      rw [List.length_cons, List.length_append, List.length_singleton]
      rw [List.length_cons] at few
      omega

theorem mem_of_mem_recent (member : item ∈ recent maximum log) : item ∈ log :=
  List.mem_of_mem_drop member

end Recent

/-- The cache holds the last entries of the log. -/
structure Keeps (maximum : Nat) (log : List (κ × α)) (cache : Fifo κ α) : Prop where
  order : cache.order = (recent maximum log).map Prod.fst
  entries : ∀ key value, cache.entries[key]? = some value ↔ (key, value) ∈ recent maximum log

section Keeps

variable {maximum : Nat} {log : List (κ × α)} {cache : Fifo κ α} {key : κ} {value : α}

theorem Keeps.get_none (keeps : Keeps maximum log cache)
    (old : key ∉ recent maximum (log.map Prod.fst)) : cache.entries[key]? = none := by
  cases found : cache.entries[key]? with
  | none => rfl
  | some value =>
    rw [keeps.entries] at found
    rw [recent_map] at old
    exact absurd (List.mem_map.mpr ⟨_, found, rfl⟩) old

/-- What is found is the entry of the log, where it is recent. -/
theorem Keeps.get_of_mem (keeps : Keeps maximum log cache) (distinct : (log.map Prod.fst).Nodup)
    (logged : (key, value) ∈ log) (isRecent : key ∈ recent maximum (log.map Prod.fst)) :
    cache.entries[key]? = some value := by
  rw [recent_map, List.mem_map] at isRecent
  obtain ⟨⟨key', value'⟩, member, rfl⟩ := isRecent
  have same : (key', value) = (key', value') :=
    List.inj_on_of_nodup_map distinct logged (mem_of_mem_recent member) rfl
  rw [keeps.entries, same]
  exact member

theorem Keeps.empty [TransOrd κ] : Keeps maximum [] (Fifo.empty : Fifo κ α) where
  order := by simp [Fifo.empty, recent]
  entries key value := by simp [Fifo.empty, recent]

variable [TransOrd κ] [LawfulEqOrd κ]

/-- Evicting keeps the last entries. -/
theorem evict_keeps {entries : TreeMap κ α} (distinct : (log.map Prod.fst).Nodup)
    (holds : ∀ key value, entries[key]? = some value ↔ (key, value) ∈ log) :
    Keeps maximum log (Fifo.evict maximum (log.map Prod.fst) entries) := by
  induction log generalizing entries with
  | nil => exact ⟨by simp [Fifo.evict, recent], by simpa [Fifo.evict, recent] using holds⟩
  | cons first log ih =>
    rw [List.map_cons, List.nodup_cons] at distinct
    obtain ⟨new, distinct⟩ := distinct
    by_cases many : maximum < (first :: log).length
    · have rest : ∀ key value, (entries.erase first.1)[key]? = some value ↔ (key, value) ∈ log := by
        intro key value
        rw [TreeMap.getElem?_erase]
        by_cases same : first.1 = key
        · -- The key of the entry that is forgotten does not occur behind it.
          subst same
          simp only [Std.ReflCmp.compare_self, if_true, reduceCtorEq, false_iff]
          intro member
          exact new (List.mem_map.mpr ⟨_, member, rfl⟩)
        · rw [if_neg (by simpa using same), holds, List.mem_cons]
          constructor
          · intro member
            obtain rfl | member := member
            · exact absurd rfl same
            · exact member
          · exact .inr
      have kept := ih distinct rest
      have step : Fifo.evict maximum ((first :: log).map Prod.fst) entries =
          Fifo.evict maximum (log.map Prod.fst) (entries.erase first.1) := by
        rw [List.map_cons, Fifo.evict, if_pos]
        simpa using many
      rw [step]
      constructor
      · rw [kept.order, recent_cons many]
      · intro key value
        rw [kept.entries, recent_cons many]
    · have stop : Fifo.evict maximum ((first :: log).map Prod.fst) entries =
          ⟨(first :: log).map Prod.fst, entries⟩ := by
        rw [List.map_cons, Fifo.evict, if_neg]
        simpa using many
      rw [stop]
      constructor
      · rw [recent_of_le (by omega)]
      · intro key value
        rw [holds, recent_of_le (by omega)]

/-- A new key pushes out what is not recent any more. -/
theorem Keeps.push (keeps : Keeps maximum log cache)
    (distinct : ((log ++ [(key, value)]).map Prod.fst).Nodup) :
    Keeps maximum (log ++ [(key, value)]) (cache.push maximum key value) := by
  have sublist : ((recent maximum log ++ [(key, value)]).map Prod.fst).Sublist
      ((log ++ [(key, value)]).map Prod.fst) :=
    ((List.drop_sublist _ _).append (List.Sublist.refl _)).map _
  have distinct' := distinct.sublist sublist
  have new : ∀ other, (key, other) ∉ recent maximum log := by
    intro other member
    rw [List.map_append, List.nodup_append] at distinct'
    exact distinct'.2.2 key (List.mem_map.mpr ⟨_, member, rfl⟩) key (by simp) rfl
  have holds : ∀ key' value', (cache.entries.insert key value)[key']? = some value' ↔
      (key', value') ∈ recent maximum log ++ [(key, value)] := by
    intro key' value'
    rw [TreeMap.getElem?_insert, List.mem_append, List.mem_singleton, Prod.mk.injEq]
    by_cases same : key = key'
    · subst same
      simp [new, eq_comm]
    · rw [if_neg (by simpa using same), keeps.entries]
      simp [Ne.symm same]
  have evicted : Keeps maximum _ (Fifo.evict maximum _ _) := evict_keeps distinct' holds
  rw [List.map_append, ← keeps.order] at evicted
  constructor
  · rw [← recent_concat, ← evicted.order]
    rfl
  · intro key' value'
    rw [← recent_concat, ← evicted.entries]
    rfl

end Keeps

end Nausicaa.Cache
