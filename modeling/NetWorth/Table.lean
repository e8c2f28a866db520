/-!
# Tables

A finite map as a list of entries with distinct keys, in the order in which the keys were first
inserted.  Each operation has one lemma that says what a look-up finds afterwards.
-/

namespace NetWorth

/-- A finite map that remembers the order of its keys. -/
structure Table (α β : Type) where
  entries : List (α × β)
  nodup : (entries.map (·.1)).Nodup

namespace Table

variable {α β : Type}

/-- The table without entries. -/
def empty : Table α β := ⟨[], List.nodup_nil⟩

instance : Inhabited (Table α β) := ⟨empty⟩

/-- The keys in order. -/
def keys (t : Table α β) : List α :=
  t.entries.map (·.1)

/-- The values in the order of their keys. -/
def values (t : Table α β) : List β :=
  t.entries.map (·.2)

/-- The number of entries. -/
def size (t : Table α β) : Nat :=
  t.entries.length

variable [DecidableEq α]

/-- The value of the first entry with a key. -/
def findEntry (k : α) : List (α × β) → Option β
  | [] => none
  | entry :: rest => if entry.1 = k then some entry.2 else findEntry k rest

/-- The value of a key. -/
def get? (t : Table α β) (k : α) : Option β :=
  findEntry k t.entries

/-- Gives a key in place of the old value a new one, or adds the key at the end. -/
def insertEntry (k : α) (v : β) : List (α × β) → List (α × β)
  | [] => [(k, v)]
  | entry :: rest => if entry.1 = k then (k, v) :: rest else entry :: insertEntry k v rest

theorem mem_keys_insertEntry {k : α} {v : β} {entries : List (α × β)} {key : α}
    (h : key ∈ (insertEntry k v entries).map (·.1)) : key = k ∨ key ∈ entries.map (·.1) := by
  induction entries with
  | nil => simpa [insertEntry] using h
  | cons entry rest ih =>
    unfold insertEntry at h
    by_cases same : entry.1 = k
    · simp only [same, if_true, List.map_cons, List.mem_cons] at h ⊢
      rcases h with h | h
      · exact .inl h
      · exact .inr (.inr h)
    · simp only [same, if_false, List.map_cons, List.mem_cons] at h ⊢
      rcases h with h | h
      · exact .inr (.inl h)
      · rcases ih h with h | h
        · exact .inl h
        · exact .inr (.inr h)

theorem nodup_insertEntry {k : α} {v : β} {entries : List (α × β)}
    (nodup : (entries.map (·.1)).Nodup) : ((insertEntry k v entries).map (·.1)).Nodup := by
  induction entries with
  | nil => simp [insertEntry]
  | cons entry rest ih =>
    rw [List.map_cons, List.nodup_cons] at nodup
    unfold insertEntry
    by_cases same : entry.1 = k
    · simp only [same, if_true, List.map_cons, List.nodup_cons]
      exact ⟨same ▸ nodup.1, nodup.2⟩
    · simp only [same, if_false, List.map_cons, List.nodup_cons]
      refine ⟨fun h => ?_, ih nodup.2⟩
      rcases mem_keys_insertEntry h with h | h
      · exact same h
      · exact nodup.1 h

/-- Gives a key a value; a key that is there keeps its place. -/
def insert (t : Table α β) (k : α) (v : β) : Table α β :=
  ⟨insertEntry k v t.entries, nodup_insertEntry t.nodup⟩

omit [DecidableEq α] in
theorem nodup_filter {keep : α × β → Bool} {entries : List (α × β)}
    (nodup : (entries.map (·.1)).Nodup) : ((entries.filter keep).map (·.1)).Nodup :=
  nodup.sublist (List.filter_sublist.map _)

omit [DecidableEq α] in
/-- Keeps the entries that satisfy a condition. -/
def filter (t : Table α β) (keep : α → β → Bool) : Table α β :=
  ⟨t.entries.filter fun entry => keep entry.1 entry.2, nodup_filter t.nodup⟩

/-- Removes a key. -/
def erase (t : Table α β) (k : α) : Table α β :=
  t.filter fun key _ => key ≠ k

/-- The table of a list of entries, of which the last one with a key wins. -/
def ofList (entries : List (α × β)) : Table α β :=
  entries.foldl (fun t entry => t.insert entry.1 entry.2) empty

/-- Applies a function to each value. -/
def mapValues {γ : Type} (t : Table α β) (f : β → γ) : Table α γ :=
  ⟨t.entries.map fun entry => (entry.1, f entry.2), by
    simpa [List.map_map, Function.comp_def] using t.nodup⟩

theorem get?_empty (k : α) : (empty : Table α β).get? k = none := rfl

theorem findEntry_insertEntry (k key : α) (v : β) (entries : List (α × β)) :
    findEntry key (insertEntry k v entries) =
      if key = k then some v else findEntry key entries := by
  induction entries with
  | nil =>
    by_cases h : key = k
    · simp [insertEntry, findEntry, h]
    · simp [insertEntry, findEntry, h, Ne.symm h]
  | cons entry rest ih =>
    by_cases same : entry.1 = k
    · by_cases h : key = k
      · simp [insertEntry, findEntry, same, h]
      · simp [insertEntry, findEntry, same, h, Ne.symm h]
    · by_cases h : entry.1 = key
      · have differs : ¬ key = k := fun e => same (h.trans e)
        simp [insertEntry, findEntry, h, differs]
      · simp [insertEntry, findEntry, same, h, ih]

/-- A look-up finds the inserted value under its key and leaves the other keys alone. -/
theorem get?_insert (t : Table α β) (k key : α) (v : β) :
    (t.insert k v).get? key = if key = k then some v else t.get? key :=
  findEntry_insertEntry k key v t.entries

end Table

end NetWorth
