import Mathlib
import NetWorth.Table

/-!
# Tables after removals and under maps

What a look-up finds in a table of which some entries have been removed, and
how the operations on a table go together with a map of its values.
-/

namespace NetWorth.Table

variable {α β : Type} [DecidableEq α]

omit [DecidableEq α] in
/-- Tables with the same entries are the same. -/
theorem eq_of_entries
    {first second : Table α β}
    (same : first.entries = second.entries) :
    first = second := by
  cases first
  cases second
  cases same
  rfl

/-- A key that is not there is not found. -/
private theorem findEntry_eq_none
    {key : α}
    {entries : List (α × β)}
    (missing : key ∉ entries.map (·.1)) :
    findEntry key entries = none := by
  induction entries with
  | nil =>
      rfl
  | cons entry rest inductionHypothesis =>
      rw [List.map_cons, List.mem_cons, not_or] at missing
      rw [findEntry, if_neg (Ne.symm missing.1)]
      exact inductionHypothesis missing.2

/-- A removed key is not found, and a kept one has its value. -/
private theorem findEntry_filter
    (keep : α → β → Bool)
    (key : α)
    {entries : List (α × β)}
    (nodup : (entries.map (·.1)).Nodup) :
    findEntry key (entries.filter fun entry => keep entry.1 entry.2) =
      (findEntry key entries).filter (keep key) := by
  induction entries with
  | nil =>
      rfl
  | cons entry rest inductionHypothesis =>
      rw [List.map_cons, List.nodup_cons] at nodup
      have restFound := inductionHypothesis nodup.2
      by_cases isHead : entry.1 = key
      · subst isHead
        have onlyHead : findEntry entry.1 rest = none :=
          findEntry_eq_none nodup.1
        by_cases kept : keep entry.1 entry.2
        · simp [findEntry, kept, Option.filter]
        · simp [findEntry, kept, restFound, onlyHead, Option.filter]
      · by_cases kept : keep entry.1 entry.2
        · simp [findEntry, isHead, kept, restFound]
        · simp [findEntry, isHead, kept, restFound]

/-- A look-up in what is kept finds what it found, if that is kept. -/
theorem get?_filter
    (t : Table α β)
    (keep : α → β → Bool)
    (key : α) :
    (t.filter keep).get? key = (t.get? key).filter (keep key) :=
  findEntry_filter keep key t.nodup

/-- A removed key is not found; other keys are left alone. -/
theorem get?_erase
    (t : Table α β)
    (removed key : α) :
    (t.erase removed).get? key =
      if key = removed then none else t.get? key := by
  rw [erase, get?_filter]
  by_cases same : key = removed
  · cases t.get? key <;> simp [same]
  · cases t.get? key <;> simp [same]

/-- In a list without repeated keys, the value found is that of the entry. -/
private theorem findEntry_eq_some
    {key : α}
    {value : β}
    {entries : List (α × β)}
    (nodup : (entries.map (·.1)).Nodup) :
    findEntry key entries = some value ↔ (key, value) ∈ entries := by
  induction entries with
  | nil => simp [findEntry]
  | cons entry rest inductionHypothesis =>
      rw [List.map_cons, List.nodup_cons] at nodup
      by_cases isHead : entry.1 = key
      · subst isHead
        have notInRest : (entry.1, value) ∉ rest :=
          fun member => nodup.1 (List.mem_map.mpr ⟨_, member, rfl⟩)
        simp [findEntry, notInRest, Prod.ext_iff, eq_comm]
      · have notHead : (key, value) ≠ entry :=
          fun same => isHead (congrArg Prod.fst same).symm
        rw [findEntry, if_neg isHead, inductionHypothesis nodup.2,
          List.mem_cons, or_iff_right notHead]

/-- The value of a key is that of its entry. -/
theorem get?_eq_some_iff
    {t : Table α β}
    {key : α}
    {value : β} :
    t.get? key = some value ↔ (key, value) ∈ t.entries :=
  findEntry_eq_some t.nodup

/-- The keys are those that are found. -/
theorem mem_keys_iff
    {t : Table α β}
    {key : α} :
    key ∈ t.keys ↔ ∃ value, t.get? key = some value := by
  simp only [keys, List.mem_map, Prod.exists, exists_and_right,
    exists_eq_right, get?_eq_some_iff]

/-- A key is not found where it is not one of the keys. -/
theorem get?_eq_none_iff
    {t : Table α β}
    {key : α} :
    t.get? key = none ↔ key ∉ t.keys := by
  rw [mem_keys_iff, not_exists, Option.eq_none_iff_forall_ne_some]

/-- Removing a key that is not found leaves the table. -/
theorem erase_of_get?_eq_none
    {t : Table α β}
    {key : α}
    (missing : t.get? key = none) :
    t.erase key = t := by
  refine eq_of_entries (List.filter_eq_self.mpr fun entry mem => ?_)
  refine decide_eq_true fun same => ?_
  exact get?_eq_none_iff.mp missing (List.mem_map.mpr ⟨entry, mem, same⟩)

/-- Giving a key the value that it has leaves the table. -/
theorem insert_of_get?_eq_some
    {t : Table α β}
    {key : α}
    {value : β}
    (found : t.get? key = some value) :
    t.insert key value = t := by
  have kept
      (entries : List (α × β))
      (found : findEntry key entries = some value) :
      insertEntry key value entries = entries := by
    induction entries with
    | nil => cases found
    | cons entry rest inductionHypothesis =>
        by_cases isHead : entry.1 = key
        · rw [findEntry, if_pos isHead] at found
          cases found
          rw [insertEntry, if_pos isHead, ← isHead]
        · rw [findEntry, if_neg isHead] at found
          rw [insertEntry, if_neg isHead, inductionHypothesis found]
  exact eq_of_entries (kept t.entries found)

/-- After insertions in turn, the value that was inserted last under a key is
found. -/
theorem get?_foldl_insert
    {γ : Type}
    (key : γ → α)
    (value : γ → β)
    (items : List γ)
    (t : Table α β)
    (found : α) :
    (items.foldl (fun t item => t.insert (key item) (value item)) t).get?
        found =
      ((items.reverse.find? fun item => key item = found).map value).or
        (t.get? found) := by
  induction items using List.reverseRecOn with
  | nil =>
      rfl
  | append_singleton earlier last inductionHypothesis =>
      rw [List.foldl_concat, get?_insert, inductionHypothesis,
        List.reverse_concat, List.find?_cons]
      by_cases isLast : found = key last
      · simp [isLast]
      · simp [isLast, Ne.symm isLast]

/-! ## Maps of the values -/

section MapValues

variable {γ : Type} (f : β → γ)

private theorem findEntry_map
    (key : α)
    (entries : List (α × β)) :
    findEntry key (entries.map fun entry => (entry.1, f entry.2)) =
      (findEntry key entries).map f := by
  induction entries with
  | nil => rfl
  | cons entry rest inductionHypothesis =>
      by_cases isHead : entry.1 = key
      · simp [findEntry, isHead]
      · simp [findEntry, isHead, inductionHypothesis]

/-- A look-up in mapped values finds the mapped value. -/
@[simp] theorem get?_mapValues
    (t : Table α β)
    (key : α) :
    (t.mapValues f).get? key = (t.get? key).map f :=
  findEntry_map f key t.entries

private theorem insertEntry_map
    (key : α)
    (value : β)
    (entries : List (α × β)) :
    insertEntry key (f value) (entries.map fun entry => (entry.1, f entry.2)) =
      (insertEntry key value entries).map fun entry => (entry.1, f entry.2) := by
  induction entries with
  | nil => rfl
  | cons entry rest inductionHypothesis =>
      by_cases isHead : entry.1 = key
      · simp [insertEntry, isHead]
      · simp [insertEntry, isHead, inductionHypothesis]

/-- The mapped value is inserted into mapped values. -/
theorem mapValues_insert
    (t : Table α β)
    (key : α)
    (value : β) :
    (t.insert key value).mapValues f = (t.mapValues f).insert key (f value) :=
  eq_of_entries (insertEntry_map f key value t.entries).symm

omit [DecidableEq α] in
/-- A condition that does not see the map keeps the same entries. -/
theorem mapValues_filter
    (t : Table α β)
    (keep : α → γ → Bool) :
    (t.filter fun key value => keep key (f value)).mapValues f =
      (t.mapValues f).filter keep :=
  eq_of_entries
    (List.filter_map (f := fun entry : α × β => (entry.1, f entry.2))
      (p := fun entry => keep entry.1 entry.2)).symm

theorem mapValues_erase
    (t : Table α β)
    (key : α) :
    (t.erase key).mapValues f = (t.mapValues f).erase key :=
  mapValues_filter f t fun other _ => other ≠ key

omit [DecidableEq α] in
@[simp] theorem size_mapValues
    (t : Table α β) :
    (t.mapValues f).size = t.size :=
  List.length_map _

end MapValues

/-! ## Tables from lists -/

/-- A new key is added at the end. -/
private theorem insertEntry_of_not_mem
    {key : α}
    {value : β}
    {entries : List (α × β)}
    (missing : key ∉ entries.map (·.1)) :
    insertEntry key value entries = entries ++ [(key, value)] := by
  induction entries with
  | nil => rfl
  | cons entry rest inductionHypothesis =>
      rw [List.map_cons, List.mem_cons, not_or] at missing
      rw [insertEntry, if_neg (Ne.symm missing.1), inductionHypothesis missing.2]
      rfl

/-- New keys are added in their order. -/
private theorem entries_foldl_insert
    {entries : List (α × β)}
    (t : Table α β)
    (distinct : ((t.entries ++ entries).map (·.1)).Nodup) :
    (entries.foldl (fun t entry => t.insert entry.1 entry.2) t).entries =
      t.entries ++ entries := by
  induction entries generalizing t with
  | nil => simp
  | cons entry rest inductionHypothesis =>
      have isNew : entry.1 ∉ t.entries.map (·.1) := by
        rw [List.map_append, List.nodup_append'] at distinct
        exact fun mem => distinct.2.2 mem List.mem_cons_self
      have inserted : (t.insert entry.1 entry.2).entries = t.entries ++ [entry] :=
        insertEntry_of_not_mem isNew
      have distinctRest :
          (((t.insert entry.1 entry.2).entries ++ rest).map (·.1)).Nodup := by
        rw [inserted, List.append_assoc]
        exact distinct
      rw [List.foldl_cons, inductionHypothesis _ distinctRest, inserted,
        List.append_assoc]
      rfl

/-- Entries with different keys are the entries of their table. -/
theorem entries_ofList
    {entries : List (α × β)}
    (distinct : (entries.map (·.1)).Nodup) :
    (ofList entries).entries = entries :=
  entries_foldl_insert empty distinct

/-- A table is the table of its entries. -/
theorem ofList_entries
    (t : Table α β) :
    ofList t.entries = t :=
  eq_of_entries (entries_ofList t.nodup)

end NetWorth.Table
