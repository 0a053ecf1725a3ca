import ArmOS.FileData

/-!
What a truncation cuts off. The pointers to the data blocks from `keep_blocks` on
go, and with them every table that has no other pointer; the blocks they led to
are queued in the order of the places.
-/
namespace ArmOS.Truncation
open Bytes Disk Volumes Allocator FileMap BlockMap Space FileOps FileData List
open Function (update update_self update_of_ne)

section
variable (fs : Fs) (keep : Nat)

/-- The blocks that a table loses, from block `base` on. -/
def gone_slots (base : Nat) (table : Buffer) (slots : List Nat) : List Nat :=
  nonzero (fun i => if keep ≤ base + i then pointer table i else 0) slots
def emptied (base : Nat) (table : Buffer) : Bool :=
  (List.range (ptrs_per_block fs)).all fun i => keep ≤ base + i ∨ pointer table i = 0

/-- The first block behind slot `i` of the double-indirect table. -/
def table_base (i : Nat) : Nat := 12 + ptrs_per_block fs + i * ptrs_per_block fs
def all_emptied (read : Nat → Buffer) (dbl : Buffer) : Bool :=
  (List.range (ptrs_per_block fs)).all fun i =>
    pointer dbl i = 0 ∨ emptied fs keep (table_base fs i) (read (pointer dbl i))

def gone (read : Nat → Buffer) (i_block : Nat → Nat) : Place → Bool
  | .direct i => keep ≤ i
  | .single_data i => keep ≤ 12 + i
  | .single => emptied fs keep 12 (read (i_block 12))
  | .double_data i j => keep ≤ table_base fs i + j
  | .table i => emptied fs keep (table_base fs i) (read (behind read (i_block 13) i))
  | .double => all_emptied fs keep read (read (i_block 13))

/-- The blocks that are cut off, in the order of the places. -/
def cut_off (read : Nat → Buffer) (i_block : Nat → Nat) : List Nat :=
  nonzero (fun p => if gone fs keep read i_block p then at_place read i_block p else 0) (places fs)

end

variable {fs : Fs} {keep capacity : Nat}

variable {base : Nat} {table dbl : Buffer} {read : Nat → Buffer} {blocks slots : List Nat} {changed : Bool}

theorem emptied_iff :
    emptied fs keep base table = true ↔ ∀ i < ptrs_per_block fs, keep ≤ base + i ∨ pointer table i = 0 := by
  simp [emptied]

theorem emptied_slot {table j : Nat} (empty : emptied fs keep base (read table) = true)
    (below : j < ptrs_per_block fs) : (if keep ≤ base + j then 0 else behind read table j) = 0 := by
  rcases emptied_iff.mp empty j below with high | zero
  · exact if_pos high
  · simp [behind,zero]

/-! ### One table -/

theorem queue_block_free_room (room : blocks.length < capacity) (block : Nat) :
    queue_block_free capacity blocks block = some (blocks ++ [block]) := if_neg (not_le.mpr room)

theorem cut_entries (nodup : slots.Nodup) (changed : Bool)
    (room : (blocks ++ gone_slots keep base table slots).length ≤ capacity) :
    ∃ table' changed', slots.foldlM (cut_entry capacity keep base) (table,blocks,changed) =
        some (table',blocks ++ gone_slots keep base table slots,changed') ∧
      (∀ j, pointer table' j = if j ∈ slots ∧ keep ≤ base + j then 0 else pointer table j) ∧
      (changed' = false → changed = false ∧ table' = table) := by
  induction slots generalizing table blocks changed with
  | nil => exact ⟨table,changed,by simp [gone_slots,nonzero],by simp,fun quiet => ⟨quiet,rfl⟩⟩
  | cons i rest ih =>
    obtain ⟨absent,later⟩ := nodup_cons.mp nodup
    by_cases stays : base + i < keep ∨ pointer table i = 0
    · have here : gone_slots keep base table (i :: rest) = gone_slots keep base table rest := by
        rw [gone_slots,nonzero_cons,if_pos]
        · rfl
        rcases stays with low | zero
        · exact if_neg (by omega)
        · rw [zero,ite_self]
      rw [here] at room ⊢
      obtain ⟨table',changed',folded,slot,same⟩ := ih later changed room
      refine ⟨table',changed',?_,fun j => ?_,same⟩
      · rw [foldlM_cons,cut_entry,if_pos stays]
        exact folded
      · grind
    obtain ⟨high,present⟩ := not_or.mp stays
    have here : gone_slots keep base table (i :: rest) =
        pointer table i :: gone_slots keep base (set_pointer table i 0) rest := by
      have value : (if keep ≤ base + i then pointer table i else 0) = pointer table i := if_pos (by omega)
      rw [gone_slots,nonzero_cons,value,if_neg present]
      refine congrArg _ (nonzero_congr fun j member => ?_)
      have other : j ≠ i := fun same => absent (same ▸ member)
      rw [pointer_set (by decide),if_neg other]
    rw [here] at room ⊢
    have shift : blocks ++ pointer table i :: gone_slots keep base (set_pointer table i 0) rest =
        blocks ++ [pointer table i] ++ gone_slots keep base (set_pointer table i 0) rest := by simp
    rw [shift] at room ⊢
    obtain ⟨table',changed',folded,slot,same⟩ := ih later true room
    refine ⟨table',changed',?_,fun j => ?_,fun quiet => by cases (same quiet).1⟩
    · have free : blocks.length < capacity := by
        simp only [length_append,length_cons] at room
        omega
      rw [foldlM_cons,cut_entry,if_neg stays,queue_block_free_room free]
      exact folded
    rw [slot j,pointer_set (by decide)]
    by_cases last : j = i
    · subst last
      simp [absent,not_lt.mp high]
    · simp [last]

theorem cut_table_spec (room : (blocks ++ gone_slots keep base table (range (ptrs_per_block fs))).length ≤ capacity) :
    ∃ table' changed, cut_table fs capacity keep base table blocks =
        some (table',blocks ++ gone_slots keep base table (range (ptrs_per_block fs)),changed) ∧
      (∀ j < ptrs_per_block fs, pointer table' j = if keep ≤ base + j then 0 else pointer table j) ∧
      (changed = false → table' = table) ∧ block_ptrs_empty fs table' = emptied fs keep base table := by
  obtain ⟨table',changed,folded,slot,same⟩ := cut_entries nodup_range false room
  have inside : ∀ j < ptrs_per_block fs, pointer table' j = if keep ≤ base + j then 0 else pointer table j := by
    intro j below
    simp [slot j,below]
  refine ⟨table',changed,folded,inside,fun quiet => (same quiet).2,?_⟩
  rw [block_ptrs_empty,emptied,Bool.eq_iff_iff]
  grind

/-! ### Changes of tables -/

/-- A change of the blocks in `S` that keeps the others and what is in use. -/
structure Edits (fs : Fs) (v w : Volume) (S : Nat → Prop) : Prop where
  keeps : Keeps fs v w
  used : ∀ n, OnVolume fs n → block_used fs w n = block_used fs v n
  read : ∀ n, ¬ S n → w.store.read n = v.store.read n

variable {v w u : Volume} {S T : Nat → Prop}

theorem Edits.refl (consistent : Consistent fs v) : Edits fs v v S :=
  ⟨Keeps.refl consistent,fun _ _ => rfl,fun _ _ => rfl⟩
theorem Edits.trans (first : Edits fs v w S) (second : Edits fs w u T) : Edits fs v u (fun n => S n ∨ T n) := by
  refine ⟨first.keeps.trans second.keeps,fun n on => (second.used n on).trans (first.used n on),fun n outside => ?_⟩
  rw [second.read n fun here => outside (.inr here),first.read n fun here => outside (.inl here)]
theorem Edits.mono (edits : Edits fs v w S) (more : ∀ n, S n → T n) : Edits fs v w T :=
  ⟨edits.keeps,edits.used,fun n outside => edits.read n fun here => outside (more n here)⟩

theorem write_changed (consistent : Consistent fs v) {t : Nat} (allowed : ¬ Reserved fs v t)
    (same : changed = false → table = v.store.read t) :
    Edits fs v (if changed then { v with store := v.store.write_block t table } else v) (· = t) ∧
      (if changed then { v with store := v.store.write_block t table } else v).store.read t = table := by
  cases changed with
  | false => exact ⟨Edits.refl consistent,(same rfl).symm⟩
  | true =>
    have wrote := wrote_block consistent allowed table
    refine ⟨⟨wrote.keeps,wrote.used,fun n other => ?_⟩,?_⟩
    · exact (congrFun wrote.read n).trans (update_of_ne other _ _)
    · exact (congrFun wrote.read t).trans (update_self _ _ _)

/-! ### The pointers in the inode -/

variable {di : Inode}

theorem cut_pointers (nodup : slots.Nodup)
    (room : (blocks ++ nonzero (fun i => if keep ≤ i then di.i_block i else 0) slots).length ≤ capacity) :
    ∃ i_block, slots.foldlM (cut_pointer capacity keep) ⟨v,di,blocks⟩ =
        .ok ⟨v,{ di with i_block := i_block },
          blocks ++ nonzero (fun i => if keep ≤ i then di.i_block i else 0) slots⟩ ∧
      ∀ j, i_block j = if j ∈ slots ∧ keep ≤ j then 0 else di.i_block j := by
  induction slots generalizing di blocks with
  | nil => exact ⟨di.i_block,by simp [nonzero]; rfl,by simp⟩
  | cons i rest ih =>
    obtain ⟨absent,later⟩ := nodup_cons.mp nodup
    by_cases stays : i < keep ∨ di.i_block i = 0
    · have value : (if keep ≤ i then di.i_block i else 0) = 0 := by
        rcases stays with low | zero
        · exact if_neg (by omega)
        · rw [zero,ite_self]
      rw [nonzero_cons,value,if_pos rfl,nil_append] at room ⊢
      obtain ⟨i_block,folded,slot⟩ := ih later room
      refine ⟨i_block,?_,fun j => ?_⟩
      · rw [foldlM_cons,cut_pointer,if_pos stays]
        exact folded
      · grind
    obtain ⟨high,present⟩ := not_or.mp stays
    have value : (if keep ≤ i then di.i_block i else 0) = di.i_block i := if_pos (by omega)
    have others : nonzero (fun i => if keep ≤ i then di.i_block i else 0) rest =
        nonzero (fun j => if keep ≤ j then update di.i_block i 0 j else 0) rest := by
      refine nonzero_congr fun j member => ?_
      have other : j ≠ i := fun same => absent (same ▸ member)
      rw [update_of_ne other]
    rw [nonzero_cons,value,if_neg present,others,← append_assoc] at room ⊢
    have later_room : (blocks ++ [di.i_block i] ++ nonzero (fun j => if keep ≤ j then
        ({ di with i_block := update di.i_block i 0 } : Inode).i_block j else 0) rest).length ≤ capacity := room
    obtain ⟨i_block,folded,slot⟩ := ih later later_room
    refine ⟨i_block,?_,fun j => ?_⟩
    · have free : blocks.length < capacity := by
        simp only [length_append,length_cons] at room
        omega
      rw [foldlM_cons,cut_pointer,if_neg stays,queue_block_free_room free]
      exact folded
    · grind

/-! ### The single-indirect table -/

/-- The blocks behind a table that go, and the table if emptied. -/
def gone_table (fs : Fs) (keep base : Nat) (read : Nat → Buffer) (table : Nat) : List Nat :=
  if table = 0 then []
  else gone_slots keep base (read table) (List.range (ptrs_per_block fs)) ++
    if emptied fs keep base (read table) then [table] else []

theorem cut_single_spec {table : Nat} (here : di.i_block 12 = table) (consistent : Consistent fs v)
    (allowed : table ≠ 0 → ¬ Reserved fs v (table))
    (room : (blocks ++ gone_table fs keep 12 v.store.read (table)).length ≤ capacity) :
    ∃ w i_block, cut_single fs capacity keep ⟨v,di,blocks⟩ = .ok ⟨w,{ di with i_block := i_block },
        blocks ++ gone_table fs keep 12 v.store.read (table)⟩ ∧
      Edits fs v w (· = table) ∧ (∀ i ≠ 12, i_block i = di.i_block i) ∧
      i_block 12 = (if emptied fs keep 12 (v.store.read (table)) then 0 else table) ∧
      ∀ j < ptrs_per_block fs, behind w.store.read (i_block 12) j =
        if keep ≤ 12 + j then 0 else behind v.store.read (table) j := by
  subst here
  simp only [cut_single]
  by_cases zero : di.i_block 12 = 0
  · refine ⟨v,di.i_block,?_,Edits.refl consistent,fun _ _ => rfl,?_,fun j _ => ?_⟩
    · simp [zero,gone_table]
    · simp [zero]
    · simp [zero]
  rw [gone_table,if_neg zero] at room ⊢
  have short : (blocks ++ gone_slots keep 12 (v.store.read (di.i_block 12))
      (range (ptrs_per_block fs))).length ≤ capacity := by
    simp only [length_append] at room ⊢
    omega
  obtain ⟨content,changed,cut,slots,same,empty⟩ := cut_table_spec short
  rw [if_neg zero,cut]
  dsimp only
  rw [empty]
  cases last : emptied fs keep 12 (v.store.read (di.i_block 12)) with
  | true =>
    have free : (blocks ++ gone_slots keep 12 (v.store.read (di.i_block 12))
        (range (ptrs_per_block fs))).length < capacity := by
      rw [last] at room
      simp only [if_true,length_append,length_singleton] at room ⊢
      omega
    refine ⟨v,update di.i_block 12 0,?_,Edits.refl consistent,?_,?_,fun j below => ?_⟩
    · simp [queue_block_free_room free]
    · exact fun i other => update_of_ne other _ _
    · simp
    · rw [emptied_slot last below,update_self,behind_none]
  | false =>
    obtain ⟨edits,written⟩ := write_changed consistent (allowed zero) same
    refine ⟨_,di.i_block,?_,edits,fun _ _ => rfl,?_,fun j below => ?_⟩
    · simp
    · simp
    · simp only [behind,if_neg zero,written,slots j below]

/-! ### The double-indirect table -/

/-- The blocks behind a double-indirect table that go. -/
def gone_tables (fs : Fs) (keep : Nat) (read : Nat → Buffer) (dbl : Buffer) (slots : List Nat) : List Nat :=
  slots.flatMap fun i => gone_table fs keep (table_base fs i) read (pointer dbl i)

variable {read' : Nat → Buffer} {dbl' : Buffer}

theorem gone_tables_congr
    (same : ∀ i ∈ slots, pointer dbl' i = pointer dbl i ∧
    (pointer dbl i ≠ 0 → read' (pointer dbl i) = read (pointer dbl i))) :
    gone_tables fs keep read' dbl' slots = gone_tables fs keep read dbl slots := by
  refine flatMap_congr fun i member => ?_
  grind [gone_table]

/-- What the loop over the table `dbl` leaves. -/
structure CutTables (fs : Fs) (keep : Nat) (v : Volume) (dbl : Buffer) (changed : Bool) (slots : List Nat)
    (w : Volume) (dbl' : Buffer) (changed' : Bool) : Prop where
  edits : Edits fs v w (fun n => ∃ i ∈ slots, n = pointer dbl i)
  slot : ∀ i, pointer dbl' i =
    if i ∈ slots ∧ emptied fs keep (table_base fs i) (v.store.read (pointer dbl i)) then 0 else pointer dbl i
  table : ∀ i ∈ slots, pointer dbl i ≠ 0 → emptied fs keep (table_base fs i) (v.store.read (pointer dbl i)) = false →
    ∀ j < ptrs_per_block fs, pointer (w.store.read (pointer dbl i)) j =
      if keep ≤ table_base fs i + j then 0 else pointer (v.store.read (pointer dbl i)) j
  same : changed' = false → changed = false ∧ dbl' = dbl

theorem cut_second_spec (changed : Bool) {i : Nat}
    (consistent : Consistent fs v) (allowed : pointer dbl i ≠ 0 → ¬ Reserved fs v (pointer dbl i))
    (room : (blocks ++ gone_table fs keep (table_base fs i) v.store.read (pointer dbl i)).length ≤ capacity) :
    ∃ w dbl' changed', cut_second fs capacity keep (v,dbl,blocks,changed) i =
        .ok (w,dbl',blocks ++ gone_table fs keep (table_base fs i) v.store.read (pointer dbl i),changed') ∧
      CutTables fs keep v dbl changed [i] w dbl' changed' := by
  simp only [cut_second]
  by_cases zero : pointer dbl i = 0
  · refine ⟨v,dbl,changed,?_,Edits.refl consistent,fun j => ?_,fun j here present => ?_,fun quiet => ⟨quiet,rfl⟩⟩
    · simp [zero,gone_table]
    · split
      · rename_i here
        rw [mem_singleton.mp here.1,zero]
      · rfl
    · exact absurd (mem_singleton.mp here ▸ zero) present
  rw [gone_table,if_neg zero] at room ⊢
  have short : (blocks ++ gone_slots keep (table_base fs i) (v.store.read (pointer dbl i))
      (range (ptrs_per_block fs))).length ≤ capacity := by
    simp only [length_append] at room ⊢
    omega
  obtain ⟨table,written,cut,slots,same,empty⟩ := cut_table_spec short
  have base : 12 + ptrs_per_block fs + i * ptrs_per_block fs = table_base fs i := rfl
  rw [if_neg zero,base,cut]
  dsimp only
  rw [empty]
  cases last : emptied fs keep (table_base fs i) (v.store.read (pointer dbl i)) with
  | true =>
    have free : (blocks ++ gone_slots keep (table_base fs i) (v.store.read (pointer dbl i))
        (range (ptrs_per_block fs))).length < capacity := by
      rw [last] at room
      simp only [if_true,length_append,length_singleton] at room ⊢
      omega
    refine ⟨v,set_pointer dbl i 0,true,?_,Edits.refl consistent,fun j => ?_,fun j here _ kept => ?_,nofun⟩
    · simp [queue_block_free_room free]
    · rw [pointer_set (by decide)]
      by_cases here : j = i
      · subst here
        simp [last]
      · simp [here]
    · rw [mem_singleton.mp here,last] at kept
      cases kept
  | false =>
    obtain ⟨edits,content⟩ := write_changed consistent (allowed zero) same
    refine ⟨_,dbl,changed,?_,edits.mono ?_,fun j => ?_,fun j here _ _ k below => ?_,fun quiet => ⟨quiet,rfl⟩⟩
    · simp
    · rintro n rfl
      exact ⟨i,mem_singleton_self i,rfl⟩
    · grind
    · rw [mem_singleton.mp here,content,slots k below]

/-- Later turns see the same tables. -/
theorem CutTables.cons {dbl₁ dbl₂ : Buffer} {changed₁ changed₂ : Bool} {i : Nat} {rest : List Nat} (absent : i ∉ rest)
    (distinct : ∀ j ∈ rest, pointer dbl j ≠ 0 → pointer dbl j ≠ pointer dbl i)
    (first : CutTables fs keep v dbl changed [i] w dbl₁ changed₁)
    (second : CutTables fs keep w dbl₁ changed₁ rest u dbl₂ changed₂) :
    CutTables fs keep v dbl changed (i :: rest) u dbl₂ changed₂ := by
  have slot₁ : ∀ j ∈ rest, pointer dbl₁ j = pointer dbl j := by
    intro j member
    have other : j ≠ i := fun same => absent (same ▸ member)
    rw [first.slot j,if_neg]
    simp [other]
  have read₁ : ∀ j ∈ rest, pointer dbl j ≠ 0 → w.store.read (pointer dbl j) = v.store.read (pointer dbl j) := by
    intro j member present
    refine first.edits.read _ ?_
    rintro ⟨k,here,same⟩
    rw [mem_singleton.mp here] at same
    exact distinct j member present same
  refine ⟨(first.edits.trans second.edits).mono ?_,fun j => ?_,fun j member present kept k below => ?_,fun quiet => ?_⟩
  · grind
  · rw [second.slot j]
    by_cases member : j ∈ rest
    · grind
    rw [if_neg (fun both => member both.1),first.slot j]
    simp [member]
  · rcases mem_cons.mp member with rfl | later
    · have mine : u.store.read (pointer dbl j) = w.store.read (pointer dbl j) := by
        refine second.edits.read _ ?_
        rintro ⟨k,here,same⟩
        rw [slot₁ k here] at same
        exact distinct k here (same ▸ present) same.symm
      rw [mine]
      exact first.table j (mem_singleton_self j) present kept k below
    · grind [table]
  obtain ⟨quiet₁,same₂⟩ := second.same quiet
  obtain ⟨quiet₀,same₁⟩ := first.same quiet₁
  exact ⟨quiet₀,same₂.trans same₁⟩

theorem cut_seconds (nodup : slots.Nodup) (changed : Bool) (consistent : Consistent fs v)
    (allowed : ∀ i ∈ slots, pointer dbl i ≠ 0 → ¬ Reserved fs v (pointer dbl i))
    (distinct : ∀ i ∈ slots, ∀ j ∈ slots, pointer dbl i ≠ 0 → pointer dbl i = pointer dbl j → i = j)
    (room : (blocks ++ gone_tables fs keep v.store.read dbl slots).length ≤ capacity) :
    ∃ w dbl' changed', slots.foldlM (cut_second fs capacity keep) (v,dbl,blocks,changed) =
        .ok (w,dbl',blocks ++ gone_tables fs keep v.store.read dbl slots,changed') ∧
      CutTables fs keep v dbl changed slots w dbl' changed' := by
  induction slots generalizing v dbl blocks changed with
  | nil =>
    refine ⟨v,dbl,changed,by simp [gone_tables]; rfl,Edits.refl consistent,by simp,by simp,fun quiet => ⟨quiet,rfl⟩⟩
  | cons i rest ih =>
    obtain ⟨absent,later⟩ := nodup_cons.mp nodup
    have split : gone_tables fs keep v.store.read dbl (i :: rest) =
        gone_table fs keep (table_base fs i) v.store.read (pointer dbl i) ++ gone_tables fs keep v.store.read dbl rest := rfl
    rw [split,← append_assoc] at room ⊢
    have short : (blocks ++ gone_table fs keep (table_base fs i) v.store.read (pointer dbl i)).length ≤ capacity := by
      simp only [length_append] at room ⊢
      omega
    obtain ⟨w,dbl₁,changed₁,turn,first⟩ := cut_second_spec changed consistent (allowed i mem_cons_self) short
    have apart : ∀ j ∈ rest, pointer dbl j ≠ 0 → pointer dbl j ≠ pointer dbl i := by
      intro j member present same
      have equal := distinct j (mem_cons_of_mem _ member) i mem_cons_self present same
      exact absent (equal ▸ member)
    have slot₁ : ∀ j ∈ rest, pointer dbl₁ j = pointer dbl j := by
      intro j member
      have other : j ≠ i := fun same => absent (same ▸ member)
      rw [first.slot j,if_neg]
      simp [other]
    have tables : gone_tables fs keep w.store.read dbl₁ rest = gone_tables fs keep v.store.read dbl rest := by
      refine gone_tables_congr fun j member => ⟨slot₁ j member,fun present => first.edits.read _ ?_⟩
      rintro ⟨k,here,same⟩
      rw [mem_singleton.mp here] at same
      exact apart j member present same
    rw [← tables] at room ⊢
    obtain ⟨u,dbl₂,changed₂,folded,second⟩ := ih later changed₁ first.edits.keeps.consistent
      (fun j member present => by
        rw [slot₁ j member,first.edits.keeps.reserved]
        exact allowed j (mem_cons_of_mem _ member) (slot₁ j member ▸ present))
      (fun j member k other => by
        rw [slot₁ j member,slot₁ k other]
        exact distinct j (mem_cons_of_mem _ member) k (mem_cons_of_mem _ other))
      room
    refine ⟨u,dbl₂,changed₂,?_,first.cons absent apart second⟩
    rw [foldlM_cons,turn]
    exact folded

theorem all_emptied_iff : all_emptied fs keep read dbl = true ↔
    ∀ i < ptrs_per_block fs, pointer dbl i = 0 ∨ emptied fs keep (table_base fs i) (read (pointer dbl i)) = true := by
  simp [all_emptied]

theorem all_emptied_congr
    (same : ∀ i < ptrs_per_block fs, pointer dbl i ≠ 0 → read' (pointer dbl i) = read (pointer dbl i)) :
    all_emptied fs keep read' dbl = all_emptied fs keep read dbl := by
  rw [Bool.eq_iff_iff,all_emptied_iff,all_emptied_iff]
  refine forall₂_congr fun i below => or_congr_right' fun present => ?_
  rw [same i below present]

theorem CutTables.empty {changed' : Bool}
    (cut : CutTables fs keep v dbl changed (range (ptrs_per_block fs)) w dbl' changed') :
    block_ptrs_empty fs dbl' = all_emptied fs keep v.store.read dbl := by
  rw [block_ptrs_empty,all_emptied,Bool.eq_iff_iff]
  simp only [all_eq_true,mem_range,decide_eq_true_eq]
  refine forall₂_congr fun i below => ?_
  simp only [cut.slot i,mem_range,below,true_and]
  split <;> simp_all

/-- The blocks behind a double-indirect table that go, and the table if emptied. -/
def gone_double (fs : Fs) (keep : Nat) (read : Nat → Buffer) (double : Nat) : List Nat :=
  if double = 0 then []
  else gone_tables fs keep read (read double) (List.range (ptrs_per_block fs)) ++
    if all_emptied fs keep read (read double) then [double] else []

theorem cut_double_spec {double : Nat} (here : di.i_block 13 = double) (consistent : Consistent fs v)
    (allowed : double ≠ 0 → ¬ Reserved fs v (double))
    (tables : ∀ i < ptrs_per_block fs, behind v.store.read (double) i ≠ 0 →
      ¬ Reserved fs v (behind v.store.read (double) i) ∧
        behind v.store.read (double) i ≠ double)
    (distinct : ∀ i < ptrs_per_block fs, ∀ j < ptrs_per_block fs, behind v.store.read (double) i ≠ 0 →
      behind v.store.read (double) i = behind v.store.read (double) j → i = j)
    (room : (blocks ++ gone_double fs keep v.store.read (double)).length ≤ capacity) :
    ∃ w i_block, cut_double fs capacity keep ⟨v,di,blocks⟩ = .ok ⟨w,{ di with i_block := i_block },
        blocks ++ gone_double fs keep v.store.read (double)⟩ ∧
      Edits fs v w (fun n => n = double ∨
        ∃ i < ptrs_per_block fs, n = behind v.store.read (double) i) ∧
      (∀ i ≠ 13, i_block i = di.i_block i) ∧
      i_block 13 = (if all_emptied fs keep v.store.read (v.store.read (double)) then 0
        else double) ∧
      (∀ i < ptrs_per_block fs, behind w.store.read (i_block 13) i =
        if emptied fs keep (table_base fs i) (v.store.read (behind v.store.read (double) i)) then 0
        else behind v.store.read (double) i) ∧
      ∀ i < ptrs_per_block fs, ∀ j < ptrs_per_block fs,
        behind w.store.read (behind w.store.read (i_block 13) i) j =
          if keep ≤ table_base fs i + j then 0
          else behind v.store.read (behind v.store.read (double) i) j := by
  subst here
  simp only [cut_double]
  by_cases zero : di.i_block 13 = 0
  · refine ⟨v,di.i_block,?_,Edits.refl consistent,fun _ _ => rfl,?_,fun i _ => ?_,fun i _ j _ => ?_⟩
    · simp [zero,gone_double]
    · simp [zero]
    · simp [zero]
    · simp [zero]
  have slot : ∀ i, behind v.store.read (di.i_block 13) i = pointer (v.store.read (di.i_block 13)) i :=
    fun i => if_neg zero
  simp only [slot] at tables distinct ⊢
  rw [gone_double,if_neg zero] at room ⊢
  have short : (blocks ++ gone_tables fs keep v.store.read (v.store.read (di.i_block 13))
      (range (ptrs_per_block fs))).length ≤ capacity := by
    simp only [length_append] at room ⊢
    omega
  obtain ⟨u,dbl,changed,folded,cut⟩ := cut_seconds nodup_range false consistent
    (fun i member present => (tables i (mem_range.mp member) present).1)
    (fun i member j other => distinct i (mem_range.mp member) j (mem_range.mp other)) short
  rw [if_neg zero,folded]
  dsimp only
  rw [cut.empty]
  have table_edits : Edits fs v u (fun n => n = di.i_block 13 ∨
      ∃ i < ptrs_per_block fs, n = pointer (v.store.read (di.i_block 13)) i) := by
    refine cut.edits.mono ?_
    rintro n ⟨i,member,same⟩
    exact .inr ⟨i,mem_range.mp member,same⟩
  cases last : all_emptied fs keep v.store.read (v.store.read (di.i_block 13)) with
  | true =>
    have free : (blocks ++ gone_tables fs keep v.store.read (v.store.read (di.i_block 13))
        (range (ptrs_per_block fs))).length < capacity := by
      rw [last] at room
      simp only [if_true,length_append,length_singleton] at room ⊢
      omega
    refine ⟨u,update di.i_block 13 0,?_,table_edits,?_,?_,fun i below => ?_,fun i below j within => ?_⟩
    · simp [queue_block_free_room free]
    · exact fun i other => update_of_ne other _ _
    · simp
    · rw [update_self,behind_none]
      rcases all_emptied_iff.mp last i below with hole | empty
      · rw [hole,ite_self]
      · rw [if_pos empty]
    rw [update_self,behind_none,behind_none]
    rcases all_emptied_iff.mp last i below with hole | empty
    · rw [hole,behind_none,ite_self]
    · rw [emptied_slot empty within]
  | false =>
    have before : u.store.read (di.i_block 13) = v.store.read (di.i_block 13) := by
      refine cut.edits.read _ ?_
      rintro ⟨i,member,same⟩
      exact (tables i (mem_range.mp member) (same ▸ zero)).2 same.symm
    obtain ⟨edits,content⟩ := write_changed cut.edits.keeps.consistent
      (fun here => allowed zero (cut.edits.keeps.reserved.mp here))
      (fun quiet => ((cut.same quiet).2).trans before.symm)
    generalize (if changed = true then { u with store := u.store.write_block (di.i_block 13) dbl } else u) = w
      at edits content ⊢
    have left : ∀ i < ptrs_per_block fs, behind w.store.read (di.i_block 13) i =
        if emptied fs keep (table_base fs i) (v.store.read (pointer (v.store.read (di.i_block 13)) i)) then 0
        else pointer (v.store.read (di.i_block 13)) i := by
      intro i below
      rw [behind,if_neg zero,content,cut.slot i]
      simp only [mem_range,below,true_and]
    refine ⟨w,di.i_block,?_,(table_edits.trans edits).mono ?_,fun _ _ => rfl,?_,left,fun i below j within => ?_⟩
    · simp
    · rintro n (here | here)
      · exact here
      · exact .inl here
    · simp
    rw [left i below]
    cases empty : emptied fs keep (table_base fs i) (v.store.read (pointer (v.store.read (di.i_block 13)) i)) with
    | true => rw [if_pos rfl,behind_none,emptied_slot empty within]
    | false =>
      simp only [Bool.false_eq_true,if_false]
      by_cases hole : pointer (v.store.read (di.i_block 13)) i = 0
      · simp [hole]
      rw [behind,if_neg hole,behind,if_neg hole,edits.read _ (tables i below hole).2]
      exact cut.table i (mem_range.mpr below) hole empty j within

/-! ### All pointers of a file -/

variable {Key Key' : Type}

theorem gone_table_eq (base : Nat) (read : Nat → Buffer) (table : Nat) :
    nonzero (fun i => if keep ≤ base + i then behind read table i else 0) (range (ptrs_per_block fs)) ++
      nonzero (fun t => if emptied fs keep base (read t) then t else 0) [table] = gone_table fs keep base read table := by
  by_cases zero : table = 0
  · simp [zero,gone_table,nonzero]
  rw [gone_table,if_neg zero]
  congr 1
  · refine nonzero_congr fun i _ => ?_
    rw [behind,if_neg zero]
  · cases empty : emptied fs keep base (read table) <;> simp [nonzero,zero,empty]

theorem nonzero_places (f : Place → Nat) : nonzero f (places fs) =
    nonzero (fun i => f (.direct i)) (range 12) ++
      (nonzero (fun i => f (.single_data i)) (range (ptrs_per_block fs)) ++ nonzero f [.single]) ++
      ((range (ptrs_per_block fs)).flatMap (fun i =>
        nonzero (fun j => f (.double_data i j)) (range (ptrs_per_block fs)) ++ nonzero f [.table i]) ++
        nonzero f [.double]) := by
  simp only [places,nonzero,map_append,filter_append,map_map,map_flatMap,filter_flatMap]
  rfl

theorem cut_off_eq (read : Nat → Buffer) (i_block : Nat → Nat) : cut_off fs keep read i_block =
    nonzero (fun i => if keep ≤ i then i_block i else 0) (range 12) ++
      gone_table fs keep 12 read (i_block 12) ++ gone_double fs keep read (i_block 13) := by
  have direct : ∀ i ∈ range 12, (if gone fs keep read i_block (.direct i) then at_place read i_block (.direct i)
      else 0) = if keep ≤ i then i_block i else 0 := fun i _ => by simp [gone,at_place]
  have single : nonzero (fun i => if gone fs keep read i_block (.single_data i) then
        at_place read i_block (.single_data i) else 0) (range (ptrs_per_block fs)) ++
      nonzero (fun p => if gone fs keep read i_block p then at_place read i_block p else 0) [.single] =
        gone_table fs keep 12 read (i_block 12) := by
    rw [← gone_table_eq]
    congr 1
    exact nonzero_congr fun i _ => by simp [gone,at_place]
  have tables : ∀ i, nonzero (fun j => if gone fs keep read i_block (.double_data i j) then
        at_place read i_block (.double_data i j) else 0) (range (ptrs_per_block fs)) ++
      nonzero (fun p => if gone fs keep read i_block p then at_place read i_block p else 0) [.table i] =
        gone_table fs keep (table_base fs i) read (behind read (i_block 13) i) := by
    intro i
    rw [← gone_table_eq]
    congr 1
    exact nonzero_congr fun j _ => by simp [gone,at_place]
  have last : nonzero (fun p => if gone fs keep read i_block p then at_place read i_block p else 0) [.double] =
      if i_block 13 ≠ 0 ∧ all_emptied fs keep read (read (i_block 13)) then [i_block 13] else [] := by
    by_cases zero : i_block 13 = 0
    · simp [nonzero,at_place,zero]
    · cases empty : all_emptied fs keep read (read (i_block 13)) <;> simp [nonzero,gone,at_place,zero,empty]
  rw [cut_off,nonzero_places,nonzero_congr direct,single,last]
  simp only [tables]
  congr 1
  by_cases zero : i_block 13 = 0
  · simp [zero,gone_double,gone_table]
  rw [gone_double,if_neg zero]
  congr 1
  · refine flatMap_congr fun i _ => ?_
    rw [behind,if_neg zero]
  · simp [zero]

variable {di : Inode}

theorem cut_blocks_spec (consistent : Consistent fs v)
    (allowed : ∀ p : Place, p.Valid fs → p.IsTable → at_place v.store.read di.i_block p ≠ 0 →
      ¬ Reserved fs v (at_place v.store.read di.i_block p))
    (distinct : ∀ p q : Place, p.Valid fs → q.Valid fs → at_place v.store.read di.i_block p ≠ 0 →
      at_place v.store.read di.i_block p = at_place v.store.read di.i_block q → p = q)
    (room : (cut_off fs keep v.store.read di.i_block).length ≤ capacity) :
    ∃ w i_block, cut_blocks fs capacity keep ⟨v,di,[]⟩ =
        .ok ⟨w,{ di with i_block := i_block },cut_off fs keep v.store.read di.i_block⟩ ∧
      Edits fs v w (fun n => ∃ p : Place, p.Valid fs ∧ p.IsTable ∧ n = at_place v.store.read di.i_block p) ∧
      i_block 14 = di.i_block 14 ∧
      ∀ p : Place, p.Valid fs → at_place w.store.read i_block p =
        if gone fs keep v.store.read di.i_block p then 0 else at_place v.store.read di.i_block p := by
  rw [cut_off_eq] at room ⊢
  have room₁ : (([] : List Nat) ++ nonzero (fun i => if keep ≤ i then di.i_block i else 0) (range 12)).length ≤
      capacity := by
    simp only [nil_append,length_append] at room ⊢
    omega
  obtain ⟨i_block₁,cut₁,slot₁⟩ := cut_pointers (v := v) nodup_range room₁
  have upper₁ : ∀ j, 12 ≤ j → i_block₁ j = di.i_block j := by
    intro j high
    rw [slot₁ j,if_neg]
    simp [not_lt.mpr high]
  rw [nil_append] at cut₁
  have room₂ : (nonzero (fun i => if keep ≤ i then di.i_block i else 0) (range 12) ++
      gone_table fs keep 12 v.store.read (di.i_block 12)).length ≤ capacity := by
    simp only [length_append] at room ⊢
    omega
  obtain ⟨w₂,i_block₂,cut₂,edits₂,same₂,single₂,slot₂⟩ := cut_single_spec
    (show ({ di with i_block := i_block₁ } : Inode).i_block 12 = di.i_block 12 from upper₁ 12 le_rfl) consistent
        (allowed .single trivial trivial) room₂
  -- the tables behind the double-indirect one are not touched by this
  have kept : ∀ p : Place, p.Valid fs → p ≠ .single → at_place v.store.read di.i_block p ≠ 0 →
      w₂.store.read (at_place v.store.read di.i_block p) = v.store.read (at_place v.store.read di.i_block p) :=
    fun p valid other present => edits₂.read _ fun same => other (distinct p .single valid trivial present same)
  have tables₂ : ∀ i, behind w₂.store.read (di.i_block 13) i = behind v.store.read (di.i_block 13) i :=
    behind_congr (kept .double trivial (by simp))
  have content₂ : ∀ i < ptrs_per_block fs, behind v.store.read (di.i_block 13) i ≠ 0 →
      w₂.store.read (behind v.store.read (di.i_block 13) i) = v.store.read (behind v.store.read (di.i_block 13) i) :=
    fun i below present => kept (.table i) below (by simp) present
  have double₂ : gone_double fs keep w₂.store.read (di.i_block 13) = gone_double fs keep v.store.read (di.i_block 13) := by
    by_cases zero : di.i_block 13 = 0
    · simp [gone_double,zero]
    have slot : ∀ i, behind v.store.read (di.i_block 13) i = pointer (v.store.read (di.i_block 13)) i :=
      fun i => if_neg zero
    simp only [slot] at content₂
    have same : w₂.store.read (di.i_block 13) = v.store.read (di.i_block 13) := kept .double trivial (by simp) zero
    rw [gone_double,gone_double,if_neg zero,if_neg zero,same,all_emptied_congr content₂]
    congr 1
    exact gone_tables_congr fun i member => ⟨rfl,content₂ i (mem_range.mp member)⟩
  rw [← double₂] at room ⊢
  obtain ⟨w₃,i_block₃,cut₃,edits₃,same₃,double₃,table₃,slot₃⟩ := cut_double_spec
    (show ({ di with i_block := i_block₂ } : Inode).i_block 13 = di.i_block 13 from
      (same₂ 13 (by decide)).trans (upper₁ 13 (by decide))) edits₂.keeps.consistent
    (fun present here => allowed .double trivial trivial present (edits₂.keeps.reserved.mp here))
    (fun i below present => by
      rw [tables₂ i] at present ⊢
      refine ⟨fun here => allowed (.table i) below trivial present (edits₂.keeps.reserved.mp here),fun same => ?_⟩
      cases distinct (.table i) .double below trivial present same)
    (fun i below j within present same => by
      rw [tables₂ i] at present same
      rw [tables₂ j] at same
      cases distinct (.table i) (.table j) below within present same
      rfl)
    room
  simp only [tables₂] at edits₃ table₃ slot₃
  refine ⟨w₃,i_block₃,?_,(edits₂.trans edits₃).mono ?_,?_,fun p valid => ?_⟩
  · simp only [cut_blocks,cut₁,cut₂,cut₃,bind,Except.bind]
  · rintro n (here | here | ⟨i,below,here⟩)
    · exact ⟨.single,trivial,trivial,here⟩
    · exact ⟨.double,trivial,trivial,here⟩
    · exact ⟨.table i,below,trivial,here⟩
  · rw [same₃ 14 (by decide)]
    exact (same₂ 14 (by decide)).trans (upper₁ 14 (by decide))
  have lower₃ : ∀ i, i ≠ 12 → i ≠ 13 → i_block₃ i = i_block₁ i :=
    fun i single double => (same₃ i double).trans (same₂ i single)
  have single₃ : i_block₃ 12 = i_block₂ 12 := same₃ 12 (by decide)
  cases p with
  | direct i =>
    have low : i < 12 := valid
    simp [at_place,gone,lower₃ i (by omega) (by omega),slot₁ i,low]
  | single => rw [at_place,single₃,single₂,gone,at_place]
  | single_data j =>
    have same : behind w₃.store.read (i_block₂ 12) j = behind w₂.store.read (i_block₂ 12) j := by
      refine behind_congr (fun present => ?_) j
      have whole : i_block₂ 12 = at_place v.store.read di.i_block .single := by
        rw [single₂] at present ⊢
        split at present
        · exact absurd rfl present
        rename_i rest
        rw [if_neg rest,at_place]
      rw [whole] at present ⊢
      refine edits₃.read _ ?_
      rintro (equal | ⟨i,below,equal⟩)
      · cases distinct .single .double trivial trivial present equal
      · cases distinct .single (.table i) trivial below present equal
    rw [at_place,single₃,same,slot₂ j valid,at_place]
    simp [gone]
  | double =>
    rw [at_place,double₃,gone,at_place]
    by_cases zero : di.i_block 13 = 0
    · simp [zero]
    have same : w₂.store.read (di.i_block 13) = v.store.read (di.i_block 13) := kept .double trivial (by simp) zero
    have slot : ∀ i, behind v.store.read (di.i_block 13) i = pointer (v.store.read (di.i_block 13)) i :=
      fun i => if_neg zero
    simp only [slot] at content₂
    rw [same,all_emptied_congr content₂]
  | table i =>
    rw [at_place,table₃ i valid,gone,at_place]
    by_cases zero : behind v.store.read (di.i_block 13) i = 0
    · simp [zero]
    · rw [content₂ i valid zero]
  | double_data i j =>
    have table : behind w₂.store.read (behind v.store.read (di.i_block 13) i) j =
        behind v.store.read (behind v.store.read (di.i_block 13) i) j := behind_congr (content₂ i valid.1) j
    rw [at_place,slot₃ i valid.1 j valid.2,at_place,table]
    simp [gone]

end ArmOS.Truncation

