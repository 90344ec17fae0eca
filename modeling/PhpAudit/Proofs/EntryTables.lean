import PhpAudit.Entries

/-!
Look-up in tables. A table answers for a key with what was last put under it, and putting something
under a known key keeps the keys and their order.
-/

namespace PhpAudit

namespace Entries

variable {Value : Type}

theorem find?_cons (known key : String) (value : Value) (rest : Entries Value) :
    find? ((known, value) :: rest) key = if key = known then some value else find? rest key := by
  rw [find?, List.lookup_cons]
  by_cases same : key = known
  · simp [same]
  · simp [beq_false_of_ne same, same, find?]

theorem find?_put (entries : Entries Value) (key other : String) (value : Value) :
    find? (put entries key value) other =
      if other = key then some value else find? entries other := by
  induction entries with
  | nil => exact find?_cons key other value []
  | cons entry rest ih =>
      obtain ⟨known, old⟩ := entry
      unfold put
      by_cases present : known = key
      · subst present
        simp only [beq_self_eq_true, if_true, find?_cons]
        split <;> rfl
      · simp only [beq_false_of_ne present, Bool.false_eq_true, if_false, find?_cons, ih]
        by_cases first : other = known
        · simp [first, present]
        · simp [first]

theorem find?_erase (entries : Entries Value) (key other : String) :
    find? (erase entries key) other = if other = key then none else find? entries other := by
  induction entries with
  | nil => simp [erase, find?]
  | cons entry rest ih =>
      obtain ⟨known, value⟩ := entry
      simp only [erase] at ih ⊢
      by_cases removed : known = key
      · subst removed
        rw [List.filter_cons_of_neg (by simp), ih, find?_cons]
        split <;> rfl
      · rw [List.filter_cons_of_pos (by simpa using removed), find?_cons, find?_cons, ih]
        by_cases first : other = known
        · simp [first, removed]
        · simp [first]

theorem find?_eq_none_iff {entries : Entries Value} {key : String} :
    find? entries key = none ↔ key ∉ keys entries := by
  simp only [find?, List.lookup_eq_none_iff, keys, List.mem_map, bne_iff_ne]
  constructor
  · rintro apart ⟨entry, member, rfl⟩
    exact apart entry member rfl
  · rintro absent entry member rfl
    exact absent ⟨entry, member, rfl⟩

theorem keys_put (entries : Entries Value) (key : String) (value : Value) :
    keys (put entries key value) =
      if key ∈ keys entries then keys entries else keys entries ++ [key] := by
  induction entries with
  | nil => rfl
  | cons entry rest ih =>
      obtain ⟨known, old⟩ := entry
      unfold put
      by_cases present : known = key
      · simp [keys, present]
      · have other : key ≠ known := Ne.symm present
        simp only [keys] at ih ⊢
        simp only [beq_false_of_ne present, Bool.false_eq_true, if_false, List.map_cons, ih,
          List.mem_cons, other, false_or]
        by_cases later : key ∈ List.map Prod.fst rest <;> simp [later]

theorem nodup_keys_put {entries : Entries Value} (distinct : (keys entries).Nodup) (key : String)
    (value : Value) : (keys (put entries key value)).Nodup := by
  rw [keys_put]
  split
  · exact distinct
  · rename_i fresh
    refine List.nodup_append.mpr ⟨distinct, by simp, ?_⟩
    rintro known member other here rfl
    exact fresh (List.mem_singleton.mp here ▸ member)

theorem put_of_fresh {entries : Entries Value} {key : String} (fresh : key ∉ keys entries)
    (value : Value) : put entries key value = entries ++ [(key, value)] := by
  induction entries with
  | nil => rfl
  | cons entry rest ih =>
      obtain ⟨known, old⟩ := entry
      obtain ⟨other, later⟩ : key ≠ known ∧ key ∉ keys rest := by simpa [keys] using fresh
      rw [put, beq_false_of_ne (Ne.symm other), ih later]
      rfl

theorem foldl_put_of_nodup (entries pairs : Entries Value)
    (distinct : (keys (entries ++ pairs)).Nodup) :
    pairs.foldl (fun entries pair => put entries pair.1 pair.2) entries = entries ++ pairs := by
  induction pairs generalizing entries with
  | nil => simp
  | cons pair pairs ih =>
      have apart : pair.1 ∉ keys entries := by
        intro member
        rw [keys, List.map_append, List.map_cons] at distinct
        exact List.nodup_append.mp distinct |>.2.2 _ member _ List.mem_cons_self rfl
      have same : entries ++ [pair] ++ pairs = entries ++ pair :: pairs := by simp
      rw [List.foldl_cons, put_of_fresh apart, ih _ (same ▸ distinct), same]

/-- A list with distinct keys is a table as it stands. -/
theorem ofList_eq_self {pairs : List (String × Value)} (distinct : (keys pairs).Nodup) :
    ofList pairs = pairs := by
  rw [ofList, foldl_put_of_nodup [] pairs distinct, List.nil_append]

/-- With distinct keys every entry is found under its key. -/
theorem find?_eq_some_iff {entries : Entries Value} (distinct : (keys entries).Nodup)
    {key : String} {value : Value} :
    find? entries key = some value ↔ (key, value) ∈ entries := by
  induction entries with
  | nil => simp [find?]
  | cons entry rest ih =>
      obtain ⟨known, old⟩ := entry
      obtain ⟨fresh, others⟩ := List.nodup_cons.mp distinct
      rw [find?_cons, List.mem_cons, ← ih others, Prod.mk.injEq]
      by_cases same : key = known
      · subst same
        simp [find?_eq_none_iff.mpr fresh, eq_comm]
      · simp [same]

/-- Putting something under a known key changes the value there and nothing else. -/
theorem put_eq_map {entries : Entries Value} {key : String} (value : Value)
    (distinct : (keys entries).Nodup) (known : key ∈ keys entries) :
    put entries key value =
      List.map (fun entry => (entry.1, if entry.1 = key then value else entry.2)) entries := by
  induction entries with
  | nil => cases known
  | cons entry rest ih =>
      obtain ⟨first, old⟩ := entry
      obtain ⟨fresh, others⟩ := List.nodup_cons.mp distinct
      unfold put
      by_cases same : first = key
      · subst same
        have kept : List.map (fun entry => (entry.1, if entry.1 = first then value else entry.2))
            rest = rest := by
          refine (List.map_congr_left fun entry member => ?_).trans (List.map_id rest)
          have apart : entry.1 ≠ first := fun here => fresh (List.mem_map.mpr ⟨entry, member, here⟩)
          simp [apart]
        simp [kept]
      · have later : key ∈ keys rest := (List.mem_cons.mp known).resolve_left (Ne.symm same)
        simp [same, ih others later]

/-- Adding items to the list under a key adds them to the lists of all keys together. -/
theorem flatMap_put_perm {Item : Type} (entries : Entries (List Item)) (key : String)
    (more : List Item) :
    (put entries key ((find? entries key).getD [] ++ more)).flatMap Prod.snd |>.Perm
      (entries.flatMap Prod.snd ++ more) := by
  induction entries with
  | nil => simp [put, find?]
  | cons entry rest ih =>
      obtain ⟨known, old⟩ := entry
      rw [find?_cons]
      unfold put
      by_cases same : key = known
      · subst same
        simp only [beq_self_eq_true, if_true, Option.getD_some, List.flatMap_cons,
          List.append_assoc]
        exact List.perm_append_comm.append_left old
      · simp only [beq_false_of_ne (Ne.symm same), same, Bool.false_eq_true, if_false,
          List.flatMap_cons, List.append_assoc]
        exact ih.append_left old

/-! What holds of all values -/

/-- All values of a table are as described. -/
def Each (good : Value → Prop) (entries : Entries Value) : Prop := ∀ entry ∈ entries, good entry.2

namespace Each

variable {good : Value → Prop} {entries : Entries Value}

theorem put (each : Each good entries) (key : String) {value : Value} (holds : good value) :
    Each good (Entries.put entries key value) := by
  induction entries with
  | nil => exact List.forall_mem_singleton.mpr holds
  | cons entry rest ih =>
      obtain ⟨known, old⟩ := entry
      obtain ⟨first, others⟩ := List.forall_mem_cons.mp each
      unfold Entries.put
      split
      · exact List.forall_mem_cons.mpr ⟨holds, others⟩
      · exact List.forall_mem_cons.mpr ⟨first, ih others⟩

theorem erase (each : Each good entries) (key : String) : Each good (Entries.erase entries key) :=
  fun entry kept => each entry (List.mem_filter.mp kept).1

theorem find? (each : Each good entries) {key : String} {value : Value}
    (found : Entries.find? entries key = some value) : good value := by
  obtain ⟨before, behind, rfl, -⟩ := List.lookup_eq_some_iff.mp found
  exact each (key, value) (by simp)

end Each

end Entries

end PhpAudit
