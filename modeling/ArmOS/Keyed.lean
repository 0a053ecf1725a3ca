import Mathlib.Tactic

/-!
Lists of records with a key that no two records share: looking a key up, adding
a record, taking one out, at its place or by moving the last one there, and
changing one in place.
-/
namespace ArmOS.Keyed
open List

universe u v
variable {Record : Type u} {Key : Type v} [DecidableEq Key] {key : Record → Key}

def find (key : Record → Key) (records : List Record) (k : Key) : Option Record :=
  records.find? (fun r => key r = k)
def erase (key : Record → Key) (records : List Record) (k : Key) : List Record :=
  records.eraseP (fun r => key r = k)

/-- The list without a record, the last one in its place. -/
def swap_out (key : Record → Key) (records : List Record) (k : Key) : List Record :=
  match records.findIdx? (fun r => key r = k), records.getLast? with
  | some index, some last => (records.set index last).dropLast
  | _, _ => records
def change (key : Record → Key) (records : List Record) (k : Key) (f : Record → Record) : List Record :=
  records.map (fun r => if key r = k then f r else r)
def Distinct (key : Record → Key) (records : List Record) : Prop := (records.map key).Nodup

variable {records : List Record} {k : Key} {r : Record}

theorem find_mem (found : find key records k = some r) : r ∈ records := mem_of_find?_eq_some found
theorem find_key (found : find key records k = some r) : key r = k := by
  simpa using find?_some found
theorem find_none : find key records k = none ↔ ∀ r ∈ records, key r ≠ k := by
  simp [find,find?_eq_none]

section
variable (distinct : Distinct key records)
include distinct

theorem Distinct.find_of_mem (member : r ∈ records) : find key records (key r) = some r := by
  induction records with
  | nil => simp at member
  | cons first rest ih =>
    rw [Distinct,map_cons,nodup_cons] at distinct
    rcases mem_cons.mp member with rfl | later
    · simp [find]
    have other : key first ≠ key r := fun same => distinct.1 (same ▸ mem_map_of_mem later)
    simpa [find,other] using ih distinct.2 later

theorem Distinct.eq_of_key {r' : Record} (first : r ∈ records)
    (second : r' ∈ records) (same : key r = key r') : r = r' := by
  have found := distinct.find_of_mem first
  rw [same,distinct.find_of_mem second] at found
  exact (Option.some.inj found).symm

theorem Distinct.append (absent : find key records (key r) = none) : Distinct key (records ++ [r]) := by
  rw [Distinct,map_append,nodup_append]
  refine ⟨distinct,by simp,?_⟩
  intro k old k' new same
  obtain ⟨r',member,rfl⟩ := mem_map.mp old
  simp only [map_cons,map_nil,mem_singleton] at new
  exact find_none.mp absent r' member (same.trans new)

end

theorem find_append (absent : find key records (key r) = none) (k : Key) :
    find key (records ++ [r]) k = if k = key r then some r else find key records k := by
  by_cases same : k = key r
  · subst same
    rw [if_pos rfl]
    unfold find at *
    rw [find?_append,absent]
    simp
  · grind [find]

theorem erase_sublist (records : List Record) (k : Key) : (erase key records k).Sublist records :=
  eraseP_sublist
theorem Distinct.erase (distinct : Distinct key records) (k : Key) : Distinct key (erase key records k) :=
  (List.Sublist.map key (erase_sublist records k)).nodup distinct

theorem Distinct.find_erase (distinct : Distinct key records) (k k' : Key) :
    find key (Keyed.erase key records k) k' = if k' = k then none else find key records k' := by
  induction records with
  | nil => simp [find,Keyed.erase]
  | cons first rest ih =>
    rw [Distinct,map_cons,nodup_cons] at distinct
    have inductive_step := ih distinct.2
    by_cases here : key first = k
    · have step : Keyed.erase key (first :: rest) k = rest := by simp [Keyed.erase,here]
      rw [step]
      by_cases same : k' = k
      · rw [if_pos same,find_none]
        intro r member taken
        exact distinct.1 (by rw [here,← same,← taken]; exact mem_map_of_mem member)
      · grind [Keyed.find]
    have step : Keyed.erase key (first :: rest) k = first :: Keyed.erase key rest k := by
      simp [Keyed.erase,here]
    rw [step]
    by_cases same : key first = k'
    · have other : ¬ k' = k := fun taken => here (same.trans taken)
      simp [find,same,other]
    · simpa [find,same] using inductive_step

variable {f : Record → Record}

theorem find_change (kept : ∀ r, key (f r) = key r) (k k' : Key) : find key (change key records k f) k' =
      if k' = k then (find key records k').map f else find key records k' := by
  induction records with
  | nil => simp [find,change]
  | cons first rest ih =>
    by_cases here : key first = k
    · by_cases same : k' = k
      · subst same
        simp [find,change,here,kept]
      have other : ¬ k = k' := fun taken => same taken.symm
      have other' : ¬ key first = k' := fun taken => same (taken ▸ here)
      simpa [find,change,here,kept,other,other',same] using ih
    by_cases same : key first = k'
    · have other : ¬ k' = k := fun taken => here (same.trans taken)
      simp [find,change,same,other]
    · simpa [find,change,here,same] using ih

theorem change_keys (kept : ∀ r, key (f r) = key r) (records : List Record) (k : Key) :
    (change key records k f).map key = records.map key := by
  rw [change,map_map]
  refine map_congr_left (fun r _ => ?_)
  by_cases here : key r = k
  · simp [here,kept]
  · simp [here]

theorem Distinct.change (distinct : Distinct key records) (kept : ∀ r, key (f r) = key r)
    (k : Key) : Distinct key (change key records k f) := by
  rw [Distinct,change_keys kept]
  exact distinct

theorem find_split (found : find key records k = some r) :
    ∃ before after, records = before ++ r :: after ∧ (∀ s ∈ before, key s ≠ k) ∧ key r = k := by
  obtain ⟨here,before,after,rfl,absent⟩ := find?_eq_some_iff_append.mp found
  refine ⟨before,after,rfl,?_,by simpa using here⟩
  intro s member
  simpa using absent s member

variable {before after : List Record}

theorem findIdx_split (absent : ∀ s ∈ before, key s ≠ k) (here : key r = k) :
    (before ++ r :: after).findIdx? (fun s => key s = k) = some before.length := by
  have missed : before.findIdx? (fun s => key s = k) = none := by
    simpa [findIdx?_eq_none_iff] using absent
  simp [findIdx?_append,missed,findIdx?_cons,here]

theorem swap_out_last {before : List Record} (absent : ∀ s ∈ before, key s ≠ k) (here : key r = k) :
    swap_out key (before ++ [r]) k = before := by
  simp [swap_out,findIdx_split absent here]

theorem swap_out_inside {last : Record} (absent : ∀ s ∈ before, key s ≠ k) (here : key r = k) :
    swap_out key (before ++ r :: (after ++ [last])) k = before ++ last :: after := by
  have place : (before ++ r :: (after ++ [last])).findIdx? (fun s => key s = k) = some before.length :=
    findIdx_split absent here
  have back : (before ++ r :: (after ++ [last])).getLast? = some last := by
    rw [← cons_append,← append_assoc]
    exact getLast?_concat
  have moved : (before ++ r :: (after ++ [last])).set before.length last = before ++ last :: after ++ [last] := by
    simp
  rw [swap_out,place,back]
  simp only [moved,dropLast_concat]

theorem swap_out_perm (found : find key records k = some r) : (r :: swap_out key records k).Perm records := by
  obtain ⟨before,after,rfl,absent,here⟩ := find_split found
  rcases eq_nil_or_concat after with rfl | ⟨rest,last,rfl⟩
  · rw [swap_out_last absent here]
    exact (perm_append_singleton r before).symm
  rw [concat_eq_append,swap_out_inside absent here]
  refine List.Perm.trans ?_ perm_middle.symm
  exact ((perm_append_left_iff before).mpr (perm_append_singleton last rest).symm).cons r

variable {others : List Record}

omit [DecidableEq Key] in
theorem Distinct.perm (same : records.Perm others) (distinct : Distinct key records) :
    Distinct key others := (same.map key).nodup_iff.mp distinct

theorem Distinct.find_perm (distinct : Distinct key records) (same : records.Perm others)
    (k : Key) : find key others k = find key records k := by
  rcases missing : find key records k with _ | r
  · rw [find_none] at missing ⊢
    exact fun r member => missing r (same.mem_iff.mpr member)
  have found := (distinct.perm same).find_of_mem (same.mem_iff.mp (find_mem missing))
  rwa [find_key missing] at found

theorem find_cons (r : Record) (records : List Record) (k : Key) :
    find key (r :: records) k = if key r = k then some r else find key records k := by
  by_cases here : key r = k <;> simp [find,here]

section
variable {left : List Record} (distinct : Distinct key records) (same : (r :: left).Perm records)
include distinct same

omit [DecidableEq Key] in
theorem Distinct.rest : Distinct key left := by
  have whole := distinct.perm same.symm
  rw [Distinct,map_cons,nodup_cons] at whole
  exact whole.2

omit [DecidableEq Key] in
theorem Distinct.apart {s : Record} (member : s ∈ left) : key s ≠ key r := by
  have whole := distinct.perm same.symm
  simp_all [eq_1]

/-- Looking up in what is left of the records. -/
theorem Distinct.find_rest (k : Key) : find key left k = if k = key r then none else find key records k := by
  have whole := distinct.perm same.symm
  have split := whole.find_perm same k
  rw [find_cons] at split
  by_cases here : k = key r
  · subst here
    rw [if_pos rfl,find_none]
    exact fun s member => distinct.apart same member
  · rw [if_neg here,split,if_neg (fun taken => here taken.symm)]

end

end ArmOS.Keyed

