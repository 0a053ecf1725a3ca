import ArmOS.Translation
import Mathlib

/-!
What each call on a user address space does to its tables: a call that succeeds
keeps them `Sound` and `Live` and edits the mappings at one page, and a call that
fails gives back every table it has put in.
-/
namespace ArmOS.TableCalls
open Vma Frames PageTables Keyed Translation List Option
open Physical (PAGE_SIZE)
open Vm (Mapping arm64_user_vm_flags_valid page_of)
open Prod (fst snd)
open Bool (and_eq_true not_eq_false not_eq_true' or_eq_true)

variable {platform : Platform} {m : Machine} {va : Nat}

/-! ### Memory -/

/-- What was held stays held. -/
structure Kept (pool pool' : Pool) : Prop where
  held : ∀ page, Held pool page → Held pool' page
  device : pool'.device = pool.device
theorem Kept.refl (pool : Pool) : Kept pool pool := ⟨fun _ held => held,rfl⟩
theorem drawn_kept (pool : Pool) : Kept pool (drawn pool) := ⟨fun _ held => held,rfl⟩

variable {pool pool' : Pool} {page required asid index pa : Nat} {memory : Memory} {vm : UserVm} {x : Mapping}
  {l3 : L3Table} {l2 : L2Table} {m' : Machine} {done : Bool} {result : Except Int Nat} {flags : Flags}

theorem allocate_none (result : allocate_page pool = (pool',none)) : Kept pool pool' := by
  rw [allocate_page] at result
  split at result
  · simp at result
  obtain ⟨rfl,_⟩ := Prod.mk.inj result
  exact drawn_kept pool

theorem allocate_some (result : allocate_page pool = (pool',some page)) :
    Kept pool pool' ∧ Free pool page ∧ Held pool' page := by
  rw [allocate_page] at result
  split at result
  · rename_i free
    obtain ⟨rfl,same⟩ := Prod.mk.inj result
    cases same
    refine ⟨⟨?_,rfl⟩,free,?_⟩
    · intro other held
      by_cases here : other = draw pool
      · exact .inr (by simp [Frames.take,here])
      · simpa [Held,Frames.take,drawn,here] using held
    · exact .inr (by simp [Frames.take])
  · simp at result

theorem free_not_held (free : Free pool page) : ¬ Held pool page := by
  obtain ⟨_,_,device,unused⟩ := free
  simp [Held,device,unused]

theorem Kept.free (kept : Kept pool pool') (loose : ¬ Held pool page) : Kept pool (free_page pool' page) := by
  refine ⟨?_,kept.device⟩
  intro other held
  have apart : other ≠ page := fun same => loose (same ▸ held)
  simpa [Held,free_page,apart] using kept.held other held

theorem double_until_le {turns capacity large : Nat}
    (result : double_until required turns capacity = some large) : required ≤ large := by
  induction turns generalizing capacity with
  | zero => simp [double_until] at result
  | succ turns ih =>
    rw [double_until] at result
    split at result
    · cases result
      assumption
    split at result
    · simp at result
    · exact ih result

theorem grow_spec {capacity first : Nat} {result : Option Nat}
    (grown : grow pool capacity first required = (pool',result)) :
    Kept pool pool' ∧ ∀ large, result = some large → required ≤ large ∧ capacity ≤ large := by
  rw [grow] at grown
  split at grown
  · rename_i enough
    cases grown
    refine ⟨.refl _,?_⟩
    rintro large same
    cases same
    exact ⟨enough,le_rfl⟩
  rcases doubled : double_until required 33 (if capacity = 0 then first else capacity) with _ | large
  · rw [doubled] at grown
    cases grown
    exact ⟨.refl _,nofun⟩
  rw [doubled] at grown
  cases grown
  refine ⟨drawn_kept _,?_⟩
  intro large' same
  by_cases memory : kmalloc pool = true
  · rw [if_pos memory] at same
    cases same
    have reached := double_until_le doubled
    exact ⟨reached,by omega⟩
  rw [if_neg memory] at same
  cases same

theorem sound_keep (sound : Sound platform m) (kept : Kept m.pool pool) : Sound platform { m with pool := pool } :=
  ⟨sound.shape,sound.filled,fun t member => kept.held t (sound.held t member),
    fun page high => by rw [kept.device]; exact sound.addressable page high⟩

theorem sound_room (sound : Sound platform m) {l2_room l3_room room : Nat} (l2_large : m.vm.l2_tables.length ≤ l2_room)
    (l3_large : m.vm.l3_tables.length ≤ l3_room) (large : m.vm.mappings.length ≤ room) :
    Sound platform { m with vm := { m.vm with
      l2_table_capacity := l2_room, l3_table_capacity := l3_room, mapping_capacity := room } } := by
  obtain ⟨shape,filled,held,addressable⟩ := sound
  exact ⟨{ shape with
      room := ⟨l2_large,l3_large,large⟩, recorded := fun x member => (shape.recorded x member).keep rfl },
    { filled with },held,addressable⟩

/-! ### Reclaiming -/

theorem asid_hw_valid (nonzero : arm64_asid_hw asid ≠ 0) : asid_valid (arm64_asid_hw asid) = true := by
  have small : arm64_asid_hw asid ≤ 255 := Nat.le_of_lt_succ (Nat.mod_lt asid (by decide))
  simp [asid_valid,nonzero,small]

variable {parent child : Nat}

open Descriptor (zero)

/-- A table without valid entries is taken out of its parent. -/
theorem remove_user_table_ok
    (parent_valid : table_address_valid parent = true) (child_valid : table_address_valid child = true)
    (apart : parent ≠ child) (aligned : va % PAGE_SIZE = 0) (low : va < 2 ^ 39) (known : asid_valid asid = true)
    (entry : memory parent index = table_descriptor child) (empty : ∀ k < 512, (memory child k).valid = false) :
    remove_user_table memory parent child index va asid = .ok (set_entry memory parent index zero) := by
  have free : user_table_is_empty memory child = true := by
    simp only [user_table_is_empty,List.all_eq_true,mem_range,not_eq_true']
    exact empty
  have masked := table_mask_of_valid child_valid
  have below : ¬ 2 ^ 39 ≤ va := not_le.mpr low
  simp only [remove_user_table,parent_valid,child_valid,apart,aligned,below,known,entry,table_descriptor,masked,free]
  simp

variable {at_place : Nat × Nat}

theorem has_mapping_false (unused : ∀ x ∈ vm.mappings, place x.virtual_address ≠ at_place) :
    arm64_user_vm_l3_has_mapping vm at_place = false := by
  simp only [arm64_user_vm_l3_has_mapping,List.any_eq_false,and_eq_true,decide_eq_true_eq,not_and]
  exact fun x member _ => unused x member

theorem has_mapping_true (member : x ∈ vm.mappings) (resident : x.physical_address ≠ 0)
    (same : place x.virtual_address = at_place) : arm64_user_vm_l3_has_mapping vm at_place = true := by
  simp only [arm64_user_vm_l3_has_mapping,List.any_eq_true,and_eq_true,decide_eq_true_eq]
  exact ⟨x,member,resident,same⟩

theorem has_l3_iff : arm64_user_vm_l2_has_l3 vm index = true ↔ ∃ t ∈ vm.l3_tables, t.l1_index = index := by
  simp [arm64_user_vm_l2_has_l3]

section
variable (sound : Sound platform m)
include sound

theorem parent_found (found : arm64_user_vm_find_l3 m.vm va = some l3) :
    ∃ l2, arm64_user_vm_find_l2 m.vm va = some l2 := by
  rcases absent : arm64_user_vm_find_l2 m.vm va with _ | l2
  · rw [sound.shape.no_table absent] at found
    cases found
  · exact ⟨l2,rfl⟩

/-- The space after the first half of the reclaiming. -/
def without_l3 (m : Machine) (l2 : L2Table) (l3 : L3Table) : Machine :=
  { m with
    pool := free_page m.pool l3.table
    memory := set_entry m.memory l2.table l3.l2_index Descriptor.zero
    vm := { m.vm with l3_tables := swap_out L3Table.table m.vm.l3_tables l3.table } }

theorem reclaim_l3_unused (aligned : va % PAGE_SIZE = 0) (low : va < 2 ^ 39)
    (parent : arm64_user_vm_find_l2 m.vm va = some l2) (found : arm64_user_vm_find_l3 m.vm va = some l3)
    (unused : ∀ x ∈ m.vm.mappings, place x.virtual_address ≠ place va) :
    reclaim_l3 m va = (without_l3 m l2 l3,0) ∧ Sound platform (without_l3 m l2 l3) := by
  obtain ⟨shape,filled,held,addressable⟩ := sound
  obtain ⟨_,_,levels,_,_,l3_tables⟩ := shape.apart
  have l2_member : l2 ∈ m.vm.l2_tables := find_mem parent
  have l3_member : l3 ∈ m.vm.l3_tables := find_mem found
  have l2_key : l2.l1_index = l1_index va := find_key parent
  have l3_key : l3.place = place va := find_key found
  have first : l3.l1_index = l1_index va := congrArg fst l3_key
  have second : l3.l2_index = l2_index va := congrArg snd l3_key
  have entry := filled.middle l2 l2_member (l2_index va) (index_lt va).2.1
  rw [arm64_user_vm_find_l3,place] at found
  simp only [l2_key,found,map_some,table_entry,elim_some] at entry
  have empty : ∀ k < 512, (m.memory l3.table k).valid = false := by
    intro k small
    have absent : find Mapping.virtual_address m.vm.mappings (page_at l3.place k) = none := by
      rw [find_none]
      intro x member same
      obtain ⟨small_first,small_second⟩ := shape.place_small l3_member
      refine unused x member ?_
      rw [same,(place_page_at small_first small_second small).1,l3_key]
    rw [filled.leaves l3 l3_member k small,absent]
    rfl
  have removed := remove_user_table_ok (shape.l2_valid l2_member) (shape.l3_valid l3_member)
    (levels l2 l2_member l3 l3_member) aligned low (asid_hw_valid shape.asid) entry empty
  have perm := swap_out_perm (l3_tables.find_of_mem l3_member)
  have all := tables_remove_l3 platform m.vm perm
  constructor
  · rw [← place,← arm64_user_vm_find_l3] at found
    simp only [reclaim_l3,found,has_mapping_false unused,parent,arm64_mmu_remove_user_l3,removed,without_l3,second]
    rfl
  refine ⟨shape.remove_l3 perm ?_,filled.remove_l3 shape perm l2_member (l2_key.trans first.symm),?_,addressable⟩
  · intro x member
    rw [l3_key]
    exact unused x member
  intro t member
  have apart : t ≠ l3.table := by
    rintro rfl
    exact (nodup_cons.mp (all.nodup_iff.mpr shape.nodup)).1 member
  simpa [Held,without_l3,free_page,apart] using held t (all.subset (mem_cons_of_mem _ member))

/-- The space after the second half of the reclaiming. -/
def without_l2 (m : Machine) (l2 : L2Table) : Machine :=
  { m with
    pool := free_page m.pool l2.table
    memory := set_entry m.memory m.vm.l1 l2.l1_index Descriptor.zero
    vm := { m.vm with l2_tables := swap_out L2Table.table m.vm.l2_tables l2.table } }

theorem reclaim_l2_unused (aligned : va % PAGE_SIZE = 0) (low : va < 2 ^ 39)
    (found : arm64_user_vm_find_l2 m.vm va = some l2) (unused : ∀ l3 ∈ m.vm.l3_tables, l3.l1_index ≠ l1_index va) :
    reclaim_l2 m va = (without_l2 m l2,0) ∧ Sound platform (without_l2 m l2) := by
  obtain ⟨shape,filled,held,addressable⟩ := sound
  obtain ⟨l2_root,_,_,_,l2_tables,_⟩ := shape.apart
  have member : l2 ∈ m.vm.l2_tables := find_mem found
  have key : l2.l1_index = l1_index va := find_key found
  have entry := filled.root (l1_index va) (index_lt va).1
  rw [arm64_user_vm_find_l2] at found
  simp only [found,map_some,table_entry,elim_some] at entry
  have empty : ∀ k < 512, (m.memory l2.table k).valid = false := by
    intro k small
    have absent : find L3Table.place m.vm.l3_tables (l2.l1_index,k) = none := by
      rw [find_none]
      intro l3 listed same
      exact unused l3 listed ((congrArg fst same).trans key)
    rw [filled.middle l2 member k small,absent]
    rfl
  have removed := remove_user_table_ok shape.root_valid (shape.l2_valid member) (l2_root l2 member).symm aligned low
    (asid_hw_valid shape.asid) entry empty
  have no_l3 : arm64_user_vm_l2_has_l3 m.vm (l1_index va) = false := by
    rw [Bool.eq_false_iff,ne_eq,has_l3_iff]
    rintro ⟨l3,listed,same⟩
    exact unused l3 listed same
  have perm := swap_out_perm (l2_tables.find_of_mem member)
  have all := tables_remove_l2 platform m.vm perm
  constructor
  · rw [← arm64_user_vm_find_l2] at found
    simp only [reclaim_l2,found,no_l3,arm64_mmu_remove_user_l2,removed,without_l2,key]
    rfl
  refine ⟨shape.remove_l2 perm ?_,filled.remove_l2 shape perm,?_,addressable⟩
  · intro l3 listed
    rw [key]
    exact unused l3 listed
  intro t inside
  have apart : t ≠ l2.table := by
    rintro rfl
    exact (nodup_cons.mp (all.nodup_iff.mpr shape.nodup)).1 inside
  simpa [Held,without_l2,free_page,apart] using held t (all.subset (mem_cons_of_mem _ inside))

/-- Every mapping has a page. -/
def Resident (vm : UserVm) : Prop := ∀ x ∈ vm.mappings, x.physical_address ≠ 0

theorem reclaim_l3_cases (resident : Resident m.vm) (aligned : va % PAGE_SIZE = 0)
    (low : va < 2 ^ 39) :
    (reclaim_l3 m va = (m,0) ∧
      (arm64_user_vm_find_l3 m.vm va = none ∨ ∃ x ∈ m.vm.mappings, place x.virtual_address = place va)) ∨
    ∃ l2 l3, arm64_user_vm_find_l3 m.vm va = some l3 ∧ (∀ x ∈ m.vm.mappings, place x.virtual_address ≠ place va) ∧
      reclaim_l3 m va = (without_l3 m l2 l3,0) ∧ Sound platform (without_l3 m l2 l3) := by
  rcases found : arm64_user_vm_find_l3 m.vm va with _ | l3
  · exact .inl ⟨by simp [reclaim_l3,found],.inl rfl⟩
  by_cases used : ∃ x ∈ m.vm.mappings, place x.virtual_address = place va
  · obtain ⟨x,member,same⟩ := used
    refine .inl ⟨?_,.inr ⟨x,member,same⟩⟩
    simp [reclaim_l3,found,has_mapping_true member (resident x member) same]
  have unused : ∀ x ∈ m.vm.mappings, place x.virtual_address ≠ place va := fun x member same => used ⟨x,member,same⟩
  obtain ⟨l2,parent⟩ := parent_found sound found
  exact .inr ⟨l2,l3,rfl,unused,reclaim_l3_unused sound aligned low parent found unused⟩

theorem reclaim_l2_cases (aligned : va % PAGE_SIZE = 0) (low : va < 2 ^ 39) :
    (reclaim_l2 m va = (m,0) ∧
      (arm64_user_vm_find_l2 m.vm va = none ∨ ∃ l3 ∈ m.vm.l3_tables, l3.l1_index = l1_index va)) ∨
    ∃ l2, arm64_user_vm_find_l2 m.vm va = some l2 ∧ (∀ l3 ∈ m.vm.l3_tables, l3.l1_index ≠ l1_index va) ∧
      reclaim_l2 m va = (without_l2 m l2,0) ∧ Sound platform (without_l2 m l2) := by
  rcases found : arm64_user_vm_find_l2 m.vm va with _ | l2
  · exact .inl ⟨by simp [reclaim_l2,found],.inl rfl⟩
  by_cases used : ∃ l3 ∈ m.vm.l3_tables, l3.l1_index = l1_index va
  · exact .inl ⟨by simp [reclaim_l2,found,has_l3_iff.mpr used],.inr used⟩
  have unused : ∀ l3 ∈ m.vm.l3_tables, l3.l1_index ≠ l1_index va := fun l3 member same => used ⟨l3,member,same⟩
  exact .inr ⟨l2,rfl,unused,reclaim_l2_unused sound aligned low found unused⟩

end

/-- Where every table is in use there is nothing to reclaim. -/
theorem reclaim_live (live : Live m.vm) (resident : Resident m.vm) :
    arm64_user_vm_reclaim_empty_tables m va = (m,0) := by
  have first : reclaim_l3 m va = (m,0) := by
    rcases found : arm64_user_vm_find_l3 m.vm va with _ | l3
    · simp [reclaim_l3,found]
    obtain ⟨x,member,same⟩ := live.l3 l3 (find_mem found)
    have here : place x.virtual_address = place va := same.trans (find_key found)
    simp [reclaim_l3,found,has_mapping_true member (resident x member) here]
  have second : reclaim_l2 m va = (m,0) := by
    rcases found : arm64_user_vm_find_l2 m.vm va with _ | l2
    · simp [reclaim_l2,found]
    obtain ⟨l3,member,same⟩ := live.l2 l2 (find_mem found)
    have used := has_l3_iff.mpr ⟨l3,member,same.trans (find_key found)⟩
    simp [reclaim_l2,found,used]
  simp [arm64_user_vm_reclaim_empty_tables,first,second]

/-- After an unmap only tables on its way can be unused. -/
theorem reclaim_unmapped (sound : Sound platform m) (resident : Resident m.vm) (aligned : va % PAGE_SIZE = 0)
    (low : va < 2 ^ 39)
    (busy : ∀ t ∈ m.vm.l3_tables, t.place ≠ place va → ∃ x ∈ m.vm.mappings, place x.virtual_address = t.place)
    (parents : ∀ t ∈ m.vm.l2_tables, ∃ l3 ∈ m.vm.l3_tables, l3.l1_index = t.l1_index) :
    ∃ m', arm64_user_vm_reclaim_empty_tables m va = (m',0) ∧ Sound platform m' ∧ Live m'.vm ∧
      m'.vm.mappings = m.vm.mappings ∧ m'.vm.l1 = m.vm.l1 ∧ m'.vm.asid = m.vm.asid := by
  have keys := sound.shape.l3_keys
  obtain ⟨_,_,_,_,l2_tables,l3_tables⟩ := sound.shape.apart
  rcases reclaim_l3_cases sound resident aligned low with ⟨kept,used⟩ | ⟨l2,l3,found,unused,taken,sound'⟩
  · -- the table of the third level stays, and with it the one above
    have live : Live m.vm := by
      refine ⟨?_,parents⟩
      intro t member
      by_cases here : t.place = place va
      · rcases used with absent | used
        · exact absurd here (find_none.mp absent t member)
        rw [here]
        exact used
      · exact busy t member here
    exact ⟨m,reclaim_live live resident,sound,live,rfl,rfl,rfl⟩
  have perm := swap_out_perm (l3_tables.find_of_mem (find_mem found))
  have rest_used : ∀ t ∈ (without_l3 m l2 l3).vm.l3_tables, ∃ x ∈ m.vm.mappings, place x.virtual_address = t.place := by
    intro t member
    have listed := perm.subset (mem_cons_of_mem _ member)
    refine busy t listed ?_
    intro here
    have equal := keys.eq_of_key listed (find_mem found) (here.trans (find_key found).symm)
    exact l3_tables.apart perm member (congrArg L3Table.table equal)
  rcases reclaim_l2_cases sound' aligned low with ⟨kept,used⟩ | ⟨l2',found',unused',taken',sound''⟩
  · refine ⟨_,by simp [arm64_user_vm_reclaim_empty_tables,taken,kept],sound',⟨rest_used,?_⟩,rfl,rfl,rfl⟩
    intro t member
    by_cases here : t.l1_index = l1_index va
    · rcases used with absent | used
      · exact absurd here (find_none.mp absent t member)
      rw [here]
      exact used
    obtain ⟨other,listed,same⟩ := parents t member
    rcases mem_cons.mp (perm.mem_iff.mpr listed) with equal | rest
    · have index : l3.l1_index = l1_index va := congrArg fst (find_key found)
      exact absurd (same.symm.trans (equal ▸ index)) here
    · exact ⟨other,rest,same⟩
  have perm' := swap_out_perm (l2_tables.find_of_mem (find_mem found'))
  refine ⟨_,by simp [arm64_user_vm_reclaim_empty_tables,taken,taken'],sound'',⟨rest_used,?_⟩,rfl,rfl,rfl⟩
  intro t member
  have listed := perm'.subset (mem_cons_of_mem _ member)
  obtain ⟨other,below,same⟩ := parents t listed
  rcases mem_cons.mp (perm.mem_iff.mpr below) with equal | rest
  · have index : l3.l1_index = l1_index va := congrArg fst (find_key found)
    have here : t.l1_index = l1_index va := same.symm.trans (equal ▸ index)
    have equal' := sound.shape.l2_keys.eq_of_key listed (find_mem found') (here.trans (find_key found').symm)
    exact absurd (congrArg L2Table.table equal') (l2_tables.apart perm' member)
  · exact ⟨other,rest,same⟩

/-! ### Tables on the way to a page -/

/-- The lists of the inventory and the mappings are the same. -/
structure SameLists (vm vm' : UserVm) : Prop where
  l1 : vm'.l1 = vm.l1
  asid : vm'.asid = vm.asid
  mappings : vm'.mappings = vm.mappings
  l2 : vm'.l2_tables = vm.l2_tables
  l3 : vm'.l3_tables = vm.l3_tables

theorem SameLists.refl (vm : UserVm) : SameLists vm vm := ⟨rfl,rfl,rfl,rfl,rfl⟩

variable {vm' : UserVm}

theorem SameLists.live (same : SameLists vm vm') (live : Live vm) : Live vm' := by
  constructor
  · rw [same.l3,same.mappings]
    exact live.l3
  rw [same.l2,same.l3]
  exact live.l2

theorem SameLists.mapped (same : SameLists vm vm') : mapped_at vm' = mapped_at vm := by
  funext page
  simp only [mapped_at,same.mappings]

/-- What a mapping call does to the lists before its entry. -/
structure Grown (va : Nat) (vm vm' : UserVm) : Prop where
  l1 : vm'.l1 = vm.l1
  asid : vm'.asid = vm.asid
  mappings : vm'.mappings = vm.mappings
  room : vm.mapping_capacity ≤ vm'.mapping_capacity
  l2 : vm'.l2_tables = vm.l2_tables ∨ va < 2 ^ 39 ∧ arm64_user_vm_find_l2 vm va = none ∧
    ∃ table, vm'.l2_tables = vm.l2_tables ++ [⟨l1_index va,table⟩]
  l3 : vm'.l3_tables = vm.l3_tables ∨ va < 2 ^ 39 ∧ arm64_user_vm_find_l3 vm va = none ∧
    ∃ table, vm'.l3_tables = vm.l3_tables ++ [⟨l1_index va,l2_index va,table⟩]

theorem Grown.refl (vm : UserVm) : Grown va vm vm := ⟨rfl,rfl,rfl,le_rfl,.inl rfl,.inl rfl⟩

theorem SameLists.grown {vm1 vm2 : UserVm} (same : SameLists vm vm1) (room : vm.mapping_capacity ≤ vm1.mapping_capacity)
    (second : Grown va vm1 vm2) : Grown va vm vm2 := by
  obtain ⟨l1,asid,mappings,more,l2,l3⟩ := second
  rw [arm64_user_vm_find_l2,same.l2] at l2
  rw [arm64_user_vm_find_l3,same.l3] at l3
  exact ⟨l1.trans same.l1,asid.trans same.asid,mappings.trans same.mappings,room.trans more,l2,l3⟩

theorem reserve_mappings_spec (sound : Sound platform m)
    (result : arm64_user_vm_reserve_mappings m required = (m',done)) :
    Sound platform m' ∧ SameLists m.vm m'.vm ∧ m.vm.mapping_capacity ≤ m'.vm.mapping_capacity ∧
      (done = true → required ≤ m'.vm.mapping_capacity) := by
  have shape := sound.shape
  rcases grown : grow m.pool m.vm.mapping_capacity 32 required with ⟨pool,_ | large⟩
  all_goals
    simp only [arm64_user_vm_reserve_mappings,grown] at result
    cases result
    obtain ⟨kept,enough⟩ := grow_spec grown
  · exact ⟨sound_keep sound kept,.refl _,le_rfl,nofun⟩
  obtain ⟨reached,larger⟩ := enough large rfl
  exact ⟨sound_room (sound_keep sound kept) shape.room.1 shape.room.2.1 (shape.room.2.2.trans larger),
    ⟨rfl,rfl,rfl,rfl,rfl⟩,larger,fun _ => reached⟩

theorem reserve_l2_spec (sound : Sound platform m) (result : arm64_user_vm_reserve_l2_tables m required = (m',done)) :
    Sound platform m' ∧ m'.memory = m.memory ∧ m'.vm = { m.vm with l2_table_capacity := m'.vm.l2_table_capacity } ∧
      (done = true → required ≤ m'.vm.l2_table_capacity) := by
  have shape := sound.shape
  rcases grown : grow m.pool m.vm.l2_table_capacity 4 required with ⟨pool,_ | large⟩
  all_goals
    simp only [arm64_user_vm_reserve_l2_tables,grown] at result
    cases result
    obtain ⟨kept,enough⟩ := grow_spec grown
  · exact ⟨sound_keep sound kept,rfl,rfl,nofun⟩
  obtain ⟨reached,larger⟩ := enough large rfl
  exact ⟨sound_room (sound_keep sound kept) (shape.room.1.trans larger) shape.room.2.1 shape.room.2.2,rfl,rfl,
    fun _ => reached⟩

theorem reserve_l3_spec (sound : Sound platform m) (result : arm64_user_vm_reserve_l3_tables m required = (m',done)) :
    Sound platform m' ∧ m'.memory = m.memory ∧ m'.vm = { m.vm with l3_table_capacity := m'.vm.l3_table_capacity } ∧
      (done = true → required ≤ m'.vm.l3_table_capacity) := by
  have shape := sound.shape
  rcases grown : grow m.pool m.vm.l3_table_capacity 4 required with ⟨pool,_ | large⟩
  all_goals
    simp only [arm64_user_vm_reserve_l3_tables,grown] at result
    cases result
    obtain ⟨kept,enough⟩ := grow_spec grown
  · exact ⟨sound_keep sound kept,rfl,rfl,nofun⟩
  obtain ⟨reached,larger⟩ := enough large rfl
  exact ⟨sound_room (sound_keep sound kept) shape.room.1 (shape.room.2.1.trans larger) shape.room.2.2,rfl,rfl,
    fun _ => reached⟩

variable {memory' : Memory}

theorem install_ok (done : install_user_table memory parent child va index = .ok memory') :
    table_address_valid child = true ∧ va < 2 ^ 39 ∧ (memory parent index).valid = false ∧
      memory' = set_entry (clear_table memory child) parent index (table_descriptor child) := by
  rw [install_user_table] at done
  grind

section
variable (sound : Sound platform m)
include sound

variable {table : Nat}

theorem fresh_page (result : allocate_page m.pool = (pool,some table)) (valid : table_address_valid table = true) :
    Fresh platform m.vm table := by
  obtain ⟨_,free,_⟩ := allocate_some result
  exact ⟨fun member => free_not_held free (sound.held table member),valid,free.1⟩

/-- A page that is no table is cleared, with another pool. -/
theorem sound_cleared (kept : Kept m.pool pool) (loose : ¬ Held m.pool table) :
    Sound platform { m with pool := pool, memory := clear_table m.memory table } := by
  refine ⟨sound.shape,sound.filled.outside ?_,(sound_keep sound kept).held,(sound_keep sound kept).addressable⟩
  intro t member
  have apart : t ≠ table := fun same => loose (same ▸ sound.held t member)
  funext i
  simp [apart]

theorem ensure_l2_spec (done : ensure_l2 m va = (m',result)) :
    Sound platform m' ∧ Grown va m.vm m'.vm ∧ m'.vm.l3_tables = m.vm.l3_tables ∧
      ∀ table, result = .ok table → ∃ l2 ∈ m'.vm.l2_tables, l2.l1_index = l1_index va ∧ l2.table = table := by
  rcases found : arm64_user_vm_find_l2 m.vm va with _ | l2
  · simp only [ensure_l2,found] at done
    rcases reserved : arm64_user_vm_reserve_l2_tables m (m.vm.l2_tables.length + 1) with ⟨m1,_ | _⟩
    all_goals
      rw [reserved] at done
      obtain ⟨sound1,memory1,vm1,room⟩ := reserve_l2_spec sound reserved
      have grown1 : Grown va m.vm m1.vm := by
        rw [vm1]
        exact ⟨rfl,rfl,rfl,le_rfl,.inl rfl,.inl rfl⟩
      have l3_same : m1.vm.l3_tables = m.vm.l3_tables := by rw [vm1]
    · grind
    rcases allocated : allocate_page m1.pool with ⟨pool,_ | table⟩
    · simp only [allocated] at done
      cases done
      exact ⟨sound_keep sound1 (allocate_none allocated),grown1,l3_same,nofun⟩
    simp only [allocated] at done
    obtain ⟨kept,free,held⟩ := allocate_some allocated
    rcases installed : arm64_mmu_install_user_l2 (clear_table m1.memory table) m1.vm.l1 table va with code | memory
    · rw [installed] at done
      cases done
      exact ⟨sound_cleared sound1 (kept.free (free_not_held free)) (free_not_held free),grown1,l3_same,
        nofun⟩
    rw [installed] at done
    cases done
    obtain ⟨valid,low,empty,rfl⟩ := install_ok installed
    have fresh := fresh_page sound1 allocated valid
    have absent : find L2Table.l1_index m1.vm.l2_tables (l1_index va) = none := by
      rw [vm1]
      exact found
    have index : l1_index va ≠ platform.kernel_index := by
      intro kernel
      have entry := sound1.filled.root (l1_index va) (index_lt va).1
      simp only [absent,map_none,table_entry,elim_none,Platform.root_entry,if_pos kernel] at entry
      simp only [clear_table_apply,if_neg fresh.ne_root,entry,kernel_entry_valid] at empty
      cases empty
    have length : m1.vm.l2_tables.length = m.vm.l2_tables.length := by rw [vm1]
    have cleared := sound_cleared sound1 kept (free_not_held free)
    have shape := sound1.shape.add_l2 absent ⟨(index_lt va).1,index⟩ fresh (by rw [length]; exact room rfl)
    refine ⟨⟨shape,cleared.filled.add_l2 sound1.shape absent fresh,?_,cleared.addressable⟩,?_,l3_same,?_⟩
    · intro t member
      rcases mem_cons.mp ((tables_add_l2 platform m1.vm _).subset member) with rfl | old
      · exact held
      · exact cleared.held t old
    · rw [vm1]
      exact ⟨rfl,rfl,rfl,le_rfl,.inr ⟨low,found,table,rfl⟩,.inl rfl⟩
    · simp
  simp only [ensure_l2,found] at done
  cases done
  refine ⟨sound,.refl _,rfl,?_⟩
  rintro table same
  cases same
  exact ⟨l2,find_mem found,find_key found,rfl⟩

theorem install_l3_spec (parent : l2 ∈ m.vm.l2_tables)
    (key : l2.l1_index = l1_index va) (absent : arm64_user_vm_find_l3 m.vm va = none)
    (done : install_l3 m l2.table va = (m',result)) :
    Sound platform m' ∧ Grown va m.vm m'.vm ∧ m'.vm.l2_tables = m.vm.l2_tables ∧
      ∀ table, result = .ok table → ∃ l3 ∈ m'.vm.l3_tables, l3.place = place va ∧ l3.table = table := by
  rw [install_l3] at done
  rcases reserved : arm64_user_vm_reserve_l3_tables m (m.vm.l3_tables.length + 1) with ⟨m1,_ | _⟩
  all_goals
    rw [reserved] at done
    obtain ⟨sound1,memory1,vm1,room⟩ := reserve_l3_spec sound reserved
    have grown1 : Grown va m.vm m1.vm := by
      rw [vm1]
      exact ⟨rfl,rfl,rfl,le_rfl,.inl rfl,.inl rfl⟩
    have l2_same : m1.vm.l2_tables = m.vm.l2_tables := by rw [vm1]
  · cases done
    exact ⟨sound1,grown1,l2_same,nofun⟩
  rcases allocated : allocate_page m1.pool with ⟨pool,_ | table⟩
  · simp only [allocated] at done
    cases done
    exact ⟨sound_keep sound1 (allocate_none allocated),grown1,l2_same,nofun⟩
  simp only [allocated] at done
  obtain ⟨kept,free,held⟩ := allocate_some allocated
  rcases installed : arm64_mmu_install_user_l3 (clear_table m1.memory table) l2.table table va with code | memory
  · rw [installed] at done
    cases done
    exact ⟨sound_cleared sound1 (kept.free (free_not_held free)) (free_not_held free),grown1,l2_same,
      nofun⟩
  rw [installed] at done
  cases done
  obtain ⟨valid,low,_,rfl⟩ := install_ok installed
  have fresh := fresh_page sound1 allocated valid
  have parent1 : l2 ∈ m1.vm.l2_tables := l2_same ▸ parent
  have absent1 : find L3Table.place m1.vm.l3_tables (l2.l1_index,l2_index va) = none := by
    rw [vm1,key]
    exact absent
  have length : m1.vm.l3_tables.length = m.vm.l3_tables.length := by rw [vm1]
  have cleared := sound_cleared sound1 kept (free_not_held free)
  have shape := sound1.shape.add_l3 absent1 ⟨l2,parent1,rfl⟩ (index_lt va).2.1 fresh
    (by rw [length]; exact room rfl)
  have filled := cleared.filled.add_l3 sound1.shape parent1 absent1 (index_lt va).2.1 fresh
  rw [key] at shape filled
  refine ⟨⟨shape,filled,?_,cleared.addressable⟩,?_,l2_same,?_⟩
  · intro t member
    rcases mem_cons.mp ((tables_add_l3 platform m1.vm _).subset member) with rfl | old
    · exact held
    · exact cleared.held t old
  · rw [vm1]
    exact ⟨rfl,rfl,rfl,le_rfl,.inl rfl,.inr ⟨low,absent,table,rfl⟩⟩
  rintro other same
  cases same
  exact ⟨_,mem_append_right _ (mem_singleton.mpr rfl),rfl,rfl⟩

theorem ensure_l3_spec (done : arm64_user_vm_ensure_l3 m va = (m',result)) :
    Sound platform m' ∧ Grown va m.vm m'.vm ∧
      ∀ table, result = .ok table → ∃ l3 ∈ m'.vm.l3_tables, l3.place = place va ∧ l3.table = table := by
  rcases found : arm64_user_vm_find_l3 m.vm va with _ | l3
  · simp only [arm64_user_vm_ensure_l3,found] at done
    rcases middle : ensure_l2 m va with ⟨m1,code | l2⟩
    all_goals
      rw [middle] at done
      obtain ⟨sound1,grown1,l3_same,parent⟩ := ensure_l2_spec sound middle
    · cases done
      exact ⟨sound1,grown1,by simp⟩
    obtain ⟨l2,listed,key,rfl⟩ := parent l2 rfl
    have absent : arm64_user_vm_find_l3 m1.vm va = none := by
      rw [arm64_user_vm_find_l3,l3_same]
      exact found
    obtain ⟨sound2,grown2,l2_same,table⟩ := install_l3_spec sound1 listed key absent done
    refine ⟨sound2,⟨grown2.l1.trans grown1.l1,grown2.asid.trans grown1.asid,grown2.mappings.trans grown1.mappings,
      grown1.room.trans grown2.room,?_,?_⟩,table⟩
    · rw [l2_same]
      exact grown1.l2
    rw [← l3_same]
    exact grown2.l3.imp_right fun more => ⟨more.1,found,more.2.2⟩
  simp only [arm64_user_vm_ensure_l3,found] at done
  cases done
  refine ⟨sound,.refl _,?_⟩
  rintro table same
  cases same
  exact ⟨l3,find_mem found,find_key found,rfl⟩

/-- Reclaiming takes back the tables that were put in for a page. -/
theorem reclaim_grown (grown : Grown va vm m.vm) (shape : Shape platform vm)
    (live : Live vm) (resident : Resident vm) (aligned : va % PAGE_SIZE = 0) :
    ∃ m', arm64_user_vm_reclaim_empty_tables m va = (m',0) ∧ Sound platform m' ∧ SameLists vm m'.vm := by
  obtain ⟨l1_same,asid_same,mappings_same,_,l2_grown,l3_grown⟩ := grown
  obtain ⟨_,_,_,_,l2_tables,l3_tables⟩ := sound.shape.apart
  have resident' : Resident m.vm := by
    rw [Resident,mappings_same]
    exact resident
  by_cases low : va < 2 ^ 39
  · -- the first half gives the list of the third level back
    obtain ⟨m1,taken1,sound1,same1,l2_same,l3_same⟩ : ∃ m1, reclaim_l3 m va = (m1,0) ∧ Sound platform m1 ∧
        (m1.vm.l1 = m.vm.l1 ∧ m1.vm.asid = m.vm.asid ∧ m1.vm.mappings = m.vm.mappings) ∧
        m1.vm.l2_tables = m.vm.l2_tables ∧ m1.vm.l3_tables = vm.l3_tables := by
      rcases reclaim_l3_cases sound resident' aligned low with ⟨kept,used⟩ | ⟨l2,l3,found,unused,taken,sound'⟩
      · refine ⟨m,kept,sound,⟨rfl,rfl,rfl⟩,rfl,?_⟩
        rcases l3_grown with same | ⟨_,absent,table,added⟩
        · exact same
        rcases used with missing | ⟨x,member,here⟩
        · rw [arm64_user_vm_find_l3,added] at missing
          exact absurd rfl (find_none.mp missing _ (mem_append_right _ (mem_singleton.mpr rfl)))
        rw [mappings_same] at member
        obtain ⟨t,listed,at_place⟩ := (shape.recorded x member).table
        exact absurd (at_place.trans here) (find_none.mp absent t listed)
      refine ⟨_,taken,sound',⟨rfl,rfl,rfl⟩,rfl,?_⟩
      have member := find_mem found
      rcases l3_grown with same | ⟨_,absent,table,added⟩
      · rw [same] at member
        obtain ⟨x,inside,here⟩ := live.l3 l3 member
        rw [← mappings_same] at inside
        exact absurd (here.trans (find_key found)) (unused x inside)
      rw [added,mem_append,mem_singleton] at member
      rcases member with old | rfl
      · exact absurd (find_key found) (find_none.mp absent l3 old)
      rw [added] at l3_tables
      simp only [without_l3,added]
      refine swap_out_last ?_ rfl
      intro t inside
      exact l3_tables.apart (perm_append_singleton _ _).symm inside
    obtain ⟨m2,taken2,sound2,same2,l2_same2,l3_same2⟩ : ∃ m2, reclaim_l2 m1 va = (m2,0) ∧ Sound platform m2 ∧
        (m2.vm.l1 = m1.vm.l1 ∧ m2.vm.asid = m1.vm.asid ∧ m2.vm.mappings = m1.vm.mappings) ∧
        m2.vm.l2_tables = vm.l2_tables ∧ m2.vm.l3_tables = m1.vm.l3_tables := by
      rcases reclaim_l2_cases sound1 aligned low with ⟨kept,used⟩ | ⟨l2,found,unused,taken,sound'⟩
      · refine ⟨m1,kept,sound1,⟨rfl,rfl,rfl⟩,?_,rfl⟩
        rw [l2_same]
        rcases l2_grown with same | ⟨_,absent,table,added⟩
        · exact same
        rcases used with missing | ⟨l3,member,here⟩
        · rw [arm64_user_vm_find_l2,l2_same,added] at missing
          exact absurd rfl (find_none.mp missing _ (mem_append_right _ (mem_singleton.mpr rfl)))
        rw [l3_same] at member
        obtain ⟨parent,listed,key⟩ := (shape.l3_index l3 member).2
        exact absurd (key.trans here) (find_none.mp absent parent listed)
      refine ⟨_,taken,sound',⟨rfl,rfl,rfl⟩,?_,rfl⟩
      have member := find_mem found
      rw [l2_same] at member
      rcases l2_grown with same | ⟨_,absent,table,added⟩
      · rw [same] at member
        obtain ⟨l3,inside,here⟩ := live.l2 l2 member
        rw [← l3_same] at inside
        exact absurd (here.trans (find_key found)) (unused l3 inside)
      rw [added,mem_append,mem_singleton] at member
      rcases member with old | rfl
      · exact absurd (find_key found) (find_none.mp absent l2 old)
      rw [added] at l2_tables
      simp only [without_l2,l2_same,added]
      refine swap_out_last ?_ rfl
      intro t inside
      exact l2_tables.apart (perm_append_singleton _ _).symm inside
    refine ⟨m2,by simp [arm64_user_vm_reclaim_empty_tables,taken1,taken2],sound2,?_⟩
    exact ⟨same2.1.trans (same1.1.trans l1_same),same2.2.1.trans (same1.2.1.trans asid_same),
      same2.2.2.trans (same1.2.2.trans mappings_same),l2_same2,l3_same2.trans l3_same⟩
  have l2_same := l2_grown.resolve_right fun grown => low grown.1
  have l3_same := l3_grown.resolve_right fun grown => low grown.1
  have same : SameLists vm m.vm := ⟨l1_same,asid_same,mappings_same,l2_same,l3_same⟩
  exact ⟨m,reclaim_live (same.live live) resident',sound,same⟩

end

/-! ### The checks of a call -/

theorem validate_tables_shape (shape : Shape platform vm) : arm64_user_vm_validate_tables vm = true := by
  obtain ⟨l2_root,l3_root,levels,_,l2_tables,l3_tables⟩ := shape.apart
  have l2_pairs := (pairwise_map.mp shape.l2_keys).and (pairwise_map.mp l2_tables)
  have l3_pairs := (pairwise_map.mp shape.l3_keys).and (pairwise_map.mp l3_tables)
  simp only [arm64_user_vm_validate_tables,listed_table_valid,and_eq_true,decide_eq_true_eq,List.all_eq_true,
    List.any_eq_true]
  refine ⟨⟨⟨⟨⟨shape.room.1,shape.room.2.1⟩,?_⟩,l2_pairs⟩,?_⟩,l3_pairs⟩
  · intro l2 member
    have nonzero := shape.nonzero l2.table
      (mem_cons_of_mem _ (mem_append_left _ (List.mem_map_of_mem member)))
    exact ⟨(shape.l2_index l2 member).1,⟨nonzero,valid_aligned (shape.l2_valid member)⟩,l2_root l2 member⟩
  intro l3 member
  have nonzero := shape.nonzero l3.table
    (mem_cons_of_mem _ (mem_append_right _ (List.mem_map_of_mem member)))
  obtain ⟨small,l2,listed,parent⟩ := shape.l3_index l3 member
  have first := (shape.place_small member).1
  exact ⟨⟨⟨⟨first,small⟩,⟨nonzero,valid_aligned (shape.l3_valid member)⟩,l3_root l3 member⟩,l2,listed,parent⟩,
    fun l2 listed => (levels l2 listed l3 member).symm⟩

/-- The check of a sound space fails only on a missing page. -/
theorem validate_identity_iff (shape : Shape platform vm) :
    arm64_user_vm_validate_identity vm = true ↔ Resident vm := by
  have root : vm.l1 ≠ 0 := shape.nonzero vm.l1 mem_cons_self
  have asid : vm.asid ≠ 0 := by
    intro zero
    exact shape.asid (by rw [zero]; rfl)
  simp only [arm64_user_vm_validate_identity,arm64_user_vm_validate_residents,validate_tables_shape shape,
    and_eq_true,decide_eq_true_eq,List.all_eq_true,Resident]
  constructor
  · rintro ⟨_,_,checked⟩ x member
    exact (checked x member).1.1.2
  intro resident
  refine ⟨⟨⟨root,asid⟩,trivial⟩,shape.room.2.2,?_⟩
  intro x member
  have recorded := shape.recorded x member
  exact ⟨⟨⟨recorded.aligned,resident x member⟩,recorded.frame_aligned⟩,recorded.flags⟩

theorem page_flags_valid (valid : arm64_user_vm_flags_valid flags = true) : user_page_flags_valid flags = true := by
  simp only [arm64_user_vm_flags_valid,and_eq_true] at valid
  simp only [user_page_flags_valid,and_eq_true]
  exact ⟨valid.1.1,valid.2⟩

/-- The edit of the mappings that a call made at one page. -/
def Edited (vm vm' : UserVm) (page : Nat) (new : Option (Nat × Flags)) : Prop :=
  mapped_at vm' = Function.update (mapped_at vm) page new

/-! ### Mapping a page -/

theorem map_l3_ok {l3 : Nat} (done : arm64_mmu_map_user_l3_page memory l3 va pa flags asid = .ok memory') :
    va % PAGE_SIZE = 0 ∧ pa % PAGE_SIZE = 0 ∧ va < 2 ^ 39 ∧
      memory' = set_entry memory l3 (l3_index va) (user_page_descriptor pa flags) := by
  rw [arm64_mmu_map_user_l3_page] at done
  split at done
  · cases done
  · grind

theorem record_new (sound : Sound platform m) (grown : Grown va vm m.vm) (live : Live vm)
    (absent : arm64_user_vm_find_mapping vm va = none) (room : vm.mappings.length + 1 ≤ m.vm.mapping_capacity)
    (member : l3 ∈ m.vm.l3_tables) (at_place : l3.place = place va) (frame_low : pa < 2 ^ 48)
    (valid : arm64_user_vm_flags_valid flags = true)
    (done : arm64_mmu_map_user_l3_page m.memory l3.table va pa flags asid = .ok memory) :
    Sound platform (record_mapping m memory (m.vm.mappings ++ [⟨va,pa,flags⟩])) ∧
      Live (record_mapping m memory (m.vm.mappings ++ [⟨va,pa,flags⟩])).vm ∧
      Edited vm (record_mapping m memory (m.vm.mappings ++ [⟨va,pa,flags⟩])).vm va (some (pa,flags)) := by
  obtain ⟨aligned,frame_aligned,low,rfl⟩ := map_l3_ok done
  obtain ⟨_,_,mappings_same,_,l2_grown,l3_grown⟩ := grown
  rw [arm64_user_vm_find_mapping,← mappings_same] at absent
  rw [← mappings_same] at room
  have found : ∀ page, find Mapping.virtual_address (m.vm.mappings ++ [⟨va,pa,flags⟩]) page = _ := find_append absent
  have recorded : ∀ x ∈ m.vm.mappings ++ [⟨va,pa,flags⟩], Recorded m.vm x := forall_mem_append.mpr ⟨sound.shape.recorded,
    forall_mem_singleton.mpr ⟨aligned,low,frame_aligned,frame_low,valid,l3,member,at_place⟩⟩
  refine ⟨⟨?_,?_,sound.held,sound.addressable⟩,⟨?_,?_⟩,?_⟩
  · exact sound.shape.edit_pages (sound.shape.pages.append absent) (by simpa using room) recorded
  · exact sound.filled.edit_page sound.shape aligned low member at_place found
  · intro t listed
    change t ∈ m.vm.l3_tables at listed
    have either : t ∈ vm.l3_tables ∨ t.place = place va := by grind [L3Table.place,place]
    rcases either with old | new
    · obtain ⟨x,inside,here⟩ := live.l3 t old
      exact ⟨x,mem_append_left _ (mappings_same ▸ inside),here⟩
    · exact ⟨_,mem_append_right _ (mem_singleton.mpr rfl),new.symm⟩
  · have below : ∀ t ∈ vm.l3_tables, t ∈ m.vm.l3_tables := by
      intro t inside
      rcases l3_grown with same | ⟨_,_,table,added⟩
      · exact same ▸ inside
      · exact added ▸ mem_append_left _ inside
    intro t listed
    change t ∈ m.vm.l2_tables at listed
    have either : t ∈ vm.l2_tables ∨ t.l1_index = l1_index va := by grind
    rcases either with old | new
    · obtain ⟨child,inside,here⟩ := live.l2 t old
      exact ⟨child,below child inside,here⟩
    · exact ⟨l3,member,(congrArg fst at_place).trans new.symm⟩
  funext page
  simp only [mapped_at,record_mapping,found]
  by_cases here : page = va <;> simp [here,mapped_at,mappings_same]

/-- The page is mapped, or the lists are as they were. -/
def MapEnds (platform : Platform) (m m' : Machine) (va : Nat) (flags : Flags) : Except Int Nat → Prop
  | .ok pa => Sound platform m' ∧ Live m'.vm ∧ Edited m.vm m'.vm va (some (pa,flags))
  | .error _ => Sound platform m' ∧ SameLists m.vm m'.vm

theorem give_up_ends {m1 : Machine} (sound : Sound platform m) (live : Live m.vm) (resident : Resident m.vm)
    (aligned : va % PAGE_SIZE = 0) (sound1 : Sound platform m1) (grown : Grown va m.vm m1.vm) (flags : Flags)
    (code : Int) : MapEnds platform m (give_up m1 va code).1 va flags (give_up m1 va code).2 := by
  obtain ⟨m2,taken,sound2,same⟩ := reclaim_grown sound1 grown sound.shape live resident aligned
  simp only [give_up,taken]
  exact ⟨sound2,same⟩

variable (va) in
theorem map_new_page_ends (sound : Sound platform m) (live : Live m.vm) (flags : Flags) :
    MapEnds platform m (arm64_user_vm_map_new_page m va flags).1 va flags
      (arm64_user_vm_map_new_page m va flags).2 := by
  have same := SameLists.refl m.vm
  rw [arm64_user_vm_map_new_page]
  split
  · exact ⟨sound,same⟩
  rename_i checked
  simp only [or_eq_true,not_eq_true',decide_eq_true_eq,not_or,not_eq_false,not_not,ne_eq] at checked
  obtain ⟨⟨⟨⟨validated,aligned⟩,_⟩,valid⟩,_⟩ := checked
  have resident := (validate_identity_iff sound.shape).mp validated
  split
  · exact ⟨sound,same⟩
  rename_i absent
  rw [Bool.not_eq_true,isSome_eq_false_iff,isNone_iff_eq_none] at absent
  rcases reserved : arm64_user_vm_reserve_mappings m (m.vm.mappings.length + 1) with ⟨m1,_ | _⟩
  · obtain ⟨sound1,same1,_⟩ := reserve_mappings_spec sound reserved
    exact ⟨sound1,same1⟩
  obtain ⟨sound1,same1,larger,room⟩ := reserve_mappings_spec sound reserved
  rcases ensured : arm64_user_vm_ensure_l3 m1 va with ⟨m2,code | table⟩
  all_goals
    obtain ⟨sound2,grown12,tables⟩ := ensure_l3_spec sound1 ensured
    have grown2 := same1.grown larger grown12
  · simp only [ensured]
    exact give_up_ends sound live resident aligned sound2 grown2 flags _
  obtain ⟨l3,member,at_place,rfl⟩ := tables table rfl
  simp only [ensured]
  rcases allocated : allocate_page m2.pool with ⟨pool,_ | page⟩
  · have kept := sound_keep sound2 (allocate_none allocated)
    exact give_up_ends sound live resident aligned kept grown2 flags _
  obtain ⟨kept,free,_⟩ := allocate_some allocated
  rcases entered : arm64_mmu_map_user_l3_page m2.memory l3.table va page flags (arm64_asid_hw m2.vm.asid)
    with code | memory
  · simp only [entered]
    have back := sound_keep sound2 (kept.free (free_not_held free))
    exact give_up_ends sound live resident aligned back grown2 flags _
  simp only [entered]
  have frame_low : page < 2 ^ 48 := by
    by_contra high
    have device := sound2.addressable page (not_lt.mp high)
    rw [free.2.2.1] at device
    cases device
  exact record_new (sound_keep sound2 kept) grown2 live absent ((room rfl).trans grown12.room) member at_place
    frame_low valid entered

section
variable (sound : Sound platform m)
include sound

variable (va) in
theorem map_page_ends (live : Live m.vm) (frame_low : pa < 2 ^ 48) (flags : Flags) :
    MapEnds platform m (arm64_user_vm_map_page m va pa flags).1 va { flags with lazy := false }
      (arm64_user_vm_map_page m va pa flags).2 ∧
    ∀ page, (arm64_user_vm_map_page m va pa flags).2 = .ok page → page = pa := by
  have same := SameLists.refl m.vm
  rw [arm64_user_vm_map_page]
  generalize ({ flags with lazy := false } : Flags) = flags
  dsimp only
  split
  · exact ⟨⟨sound,same⟩,by simp⟩
  rename_i checked
  simp only [or_eq_true,not_eq_true',decide_eq_true_eq,not_or,not_eq_false,not_not,ne_eq] at checked
  obtain ⟨⟨⟨validated,aligned⟩,_⟩,valid⟩ := checked
  have resident := (validate_identity_iff sound.shape).mp validated
  rcases absent : arm64_user_vm_find_mapping m.vm va with _ | x
  · simp only [any_none,Bool.false_eq_true,if_false,isNone_none,if_true]
    rcases reserved : arm64_user_vm_reserve_mappings m (m.vm.mappings.length + 1) with ⟨m1,_ | _⟩
    · obtain ⟨sound1,same1,_⟩ := reserve_mappings_spec sound reserved
      exact ⟨⟨sound1,same1⟩,by simp⟩
    obtain ⟨sound1,same1,larger,room⟩ := reserve_mappings_spec sound reserved
    rcases ensured : arm64_user_vm_ensure_l3 m1 va with ⟨m2,code | table⟩
    all_goals
      obtain ⟨sound2,grown12,tables⟩ := ensure_l3_spec sound1 ensured
      have grown2 := same1.grown larger grown12
    · simp only [ensured]
      exact ⟨give_up_ends sound live resident aligned sound2 grown2 flags _,by rintro _ ⟨⟩⟩
    obtain ⟨l3,member,at_place,rfl⟩ := tables table rfl
    simp only [ensured]
    rcases entered : arm64_mmu_map_user_l3_page m2.memory l3.table va pa flags (arm64_asid_hw m2.vm.asid)
      with code | memory
    · exact ⟨give_up_ends sound live resident aligned sound2 grown2 flags _,by rintro _ ⟨⟩⟩
    refine ⟨record_new sound2 grown2 live absent ((room rfl).trans grown12.room) member at_place frame_low valid
      entered,?_⟩
    rintro page same
    cases same
    rfl
  simp only [any_some,decide_eq_true (resident x (find_mem absent)),if_true]
  exact ⟨⟨sound,same⟩,by simp⟩

/-! ### Protecting and unmapping a page -/

theorem entry_of (found : arm64_user_vm_find_mapping m.vm page = some x) :
    ∃ l3, arm64_user_vm_find_l3 m.vm page = some l3 ∧
      m.memory l3.table (l3_index page) = user_page_descriptor x.physical_address x.flags := by
  have recorded := sound.shape.recorded x (find_mem found)
  have key : x.virtual_address = page := find_key found
  obtain ⟨l3,member,at_place⟩ := recorded.table
  rw [key] at at_place
  have table := sound.shape.l3_keys.find_of_mem member
  rw [at_place] at table
  refine ⟨l3,table,?_⟩
  have low : page < 2 ^ 39 := key ▸ recorded.low
  have aligned : page % PAGE_SIZE = 0 := key ▸ recorded.aligned
  rw [sound.filled.leaves l3 member _ (index_lt page).2.2,at_place,← page_of_parts low,page_of_aligned aligned]
  rw [arm64_user_vm_find_mapping] at found
  rw [found]
  rfl

theorem unmap_l3_ok (found : arm64_user_vm_find_mapping m.vm page = some x)
    (table : arm64_user_vm_find_l3 m.vm page = some l3)
    (entry : m.memory l3.table (l3_index page) = user_page_descriptor x.physical_address x.flags) :
    arm64_mmu_unmap_user_l3_page m.memory l3.table page (arm64_asid_hw m.vm.asid) =
      .ok (set_entry m.memory l3.table (l3_index page) zero,x.physical_address) := by
  have recorded := sound.shape.recorded x (find_mem found)
  have key : x.virtual_address = page := find_key found
  have low : ¬ 2 ^ 39 ≤ page := not_le.mpr (key ▸ recorded.low)
  have aligned : page % PAGE_SIZE = 0 := key ▸ recorded.aligned
  have masked := table_mask_of_aligned recorded.frame_aligned recorded.frame_low
  simp only [arm64_mmu_unmap_user_l3_page,entry,user_page_descriptor,masked,sound.shape.l3_valid (find_mem table),
    asid_hw_valid sound.shape.asid,aligned,low]
  simp

end

/-- How a call that protects or unmaps a page ends. -/
def CallEnds (platform : Platform) (m m' : Machine) (page : Nat) (new : Option (Nat × Flags)) :
    Except Int Nat → Prop
  | .ok _ => Sound platform m' ∧ Live m'.vm ∧ Edited m.vm m'.vm page new
  | .error _ => m' = m

variable (va) in
theorem protect_page_ends (sound : Sound platform m) (live : Live m.vm) (flags : Flags) :
    CallEnds platform m (arm64_user_vm_protect_page m va flags).1 (page_of va)
      ((mapped_at m.vm (page_of va)).map fun x => (x.1,{ flags with lazy := false }))
      (arm64_user_vm_protect_page m va flags).2 := by
  rw [arm64_user_vm_protect_page]
  generalize ({ flags with lazy := false } : Flags) = flags
  generalize page_of va = page
  dsimp only
  split
  · rfl
  rename_i checked
  simp only [or_eq_true,not_eq_true',not_or,not_eq_false] at checked
  obtain ⟨validated,valid⟩ := checked
  have resident := (validate_identity_iff sound.shape).mp validated
  rcases found : arm64_user_vm_find_mapping m.vm page with _ | x
  · rfl
  obtain ⟨l3,table,entry⟩ := entry_of sound found
  have recorded := sound.shape.recorded x (find_mem found)
  have key : x.virtual_address = page := find_key found
  have member := find_mem table
  have aligned : page % PAGE_SIZE = 0 := key ▸ recorded.aligned
  have low : page < 2 ^ 39 := key ▸ recorded.low
  have below : ¬ 2 ^ 39 ≤ page := not_le.mpr low
  have twice : set_entry (set_entry m.memory l3.table (l3_index page) zero) l3.table (l3_index page)
      (user_page_descriptor x.physical_address flags) =
      set_entry m.memory l3.table (l3_index page) (user_page_descriptor x.physical_address flags) := by
    funext t i
    by_cases here : t = l3.table ∧ i = l3_index page <;> simp [here]
  have entered : arm64_mmu_map_user_l3_page (set_entry m.memory l3.table (l3_index page) zero) l3.table page
      x.physical_address flags (arm64_asid_hw m.vm.asid) =
      .ok (set_entry m.memory l3.table (l3_index page) (user_page_descriptor x.physical_address flags)) := by
    simp only [arm64_mmu_map_user_l3_page,sound.shape.l3_valid member,aligned,recorded.frame_aligned,below,
      page_flags_valid valid,asid_hw_valid sound.shape.asid,twice]
    simp [zero]
  simp only [table,if_neg (resident x (find_mem found)),unmap_l3_ok sound found table entry,ne_eq,not_true_eq_false,
    if_false,entered]
  have kept : ∀ x : Mapping, ({ x with flags := flags } : Mapping).virtual_address = x.virtual_address := fun _ => rfl
  have edit : ∀ other, find Mapping.virtual_address (change Mapping.virtual_address m.vm.mappings page
      fun x => { x with flags := flags }) other =
      if other = page then some ⟨x.virtual_address,x.physical_address,flags⟩
      else find Mapping.virtual_address m.vm.mappings other := by
    intro other
    rw [find_change kept]
    by_cases here : other = page
    · rw [arm64_user_vm_find_mapping] at found
      simp [here,found]
    · simp [here]
  refine ⟨⟨?_,?_,sound.held,sound.addressable⟩,⟨?_,live.l2⟩,?_⟩
  · refine sound.shape.edit_pages (sound.shape.pages.change kept page) ?_ ?_
    · simpa [change] using sound.shape.room.2.2
    intro y inside
    obtain ⟨old,listed,rfl⟩ := mem_map.mp inside
    obtain ⟨aligned,low,frame_aligned,frame_low,old_valid,table⟩ := sound.shape.recorded old listed
    by_cases here : old.virtual_address = page
    · rw [if_pos here]
      exact ⟨aligned,low,frame_aligned,frame_low,valid,table⟩
    rw [if_neg here]
    exact ⟨aligned,low,frame_aligned,frame_low,old_valid,table⟩
  · exact sound.filled.edit_page sound.shape aligned low member (find_key table) edit
  · intro t listed
    obtain ⟨y,inside,here⟩ := live.l3 t listed
    refine ⟨_,mem_map_of_mem inside,?_⟩
    by_cases same : y.virtual_address = page <;> simpa [same] using here
  funext other
  grind [record_mapping,mapped_at,arm64_user_vm_find_mapping]

variable (va) in
theorem unmap_page_ends (sound : Sound platform m) (live : Live m.vm) :
    CallEnds platform m (arm64_user_vm_unmap_page m va).1 va none (arm64_user_vm_unmap_page m va).2 := by
  rw [arm64_user_vm_unmap_page]
  split
  · rfl
  rename_i checked
  simp only [or_eq_true,not_eq_true',decide_eq_true_eq,not_or,not_eq_false,not_not,ne_eq] at checked
  obtain ⟨validated,aligned⟩ := checked
  have resident := (validate_identity_iff sound.shape).mp validated
  rcases found : arm64_user_vm_find_mapping m.vm va with _ | x
  · rfl
  obtain ⟨l3,table,entry⟩ := entry_of sound found
  have key : x.virtual_address = va := find_key found
  have low : va < 2 ^ 39 := key ▸ (sound.shape.recorded x (find_mem found)).low
  have perm := swap_out_perm found
  have edit : ∀ other, find Mapping.virtual_address (swap_out Mapping.virtual_address m.vm.mappings va) other =
      if other = va then none else find Mapping.virtual_address m.vm.mappings other := by
    intro other
    rw [sound.shape.pages.find_rest perm,key]
  have rest : ∀ y ∈ swap_out Mapping.virtual_address m.vm.mappings va, y ∈ m.vm.mappings :=
    fun y inside => perm.subset (mem_cons_of_mem _ inside)
  simp only [if_neg (resident x (find_mem found)),table,unmap_l3_ok sound found table entry,ne_eq,not_true_eq_false,
    if_false]
  have shorter := perm.length_eq
  rw [length_cons] at shorter
  have unmapped : Sound platform (record_mapping m (set_entry m.memory l3.table (l3_index va) zero)
      (swap_out Mapping.virtual_address m.vm.mappings va)) := by
    refine ⟨?_,?_,sound.held,sound.addressable⟩
    · refine sound.shape.edit_pages (sound.shape.pages.rest perm) ?_ fun y inside =>
        sound.shape.recorded y (rest y inside)
      have room := sound.shape.room.2.2
      omega
    · exact sound.filled.edit_page sound.shape aligned low (find_mem table) (find_key table) edit
  have busy : ∀ t ∈ m.vm.l3_tables, t.place ≠ place va →
      ∃ y ∈ swap_out Mapping.virtual_address m.vm.mappings va, place y.virtual_address = t.place := by
    intro t listed apart
    obtain ⟨y,inside,here⟩ := live.l3 t listed
    rcases mem_cons.mp (perm.mem_iff.mpr inside) with rfl | kept
    · exact absurd (here.symm.trans (congrArg place key)) apart
    · exact ⟨y,kept,here⟩
  obtain ⟨m',reclaimed,sound',live',mappings_same,_⟩ := reclaim_unmapped unmapped
    (fun y inside => resident y (rest y inside)) aligned low busy live.l2
  have resident' : Resident m'.vm := by
    rw [Resident,mappings_same]
    exact fun y inside => resident y (rest y inside)
  simp only [reclaimed,checked,(validate_identity_iff sound'.shape).mpr resident',if_true]
  refine ⟨sound',live',?_⟩
  funext other
  simp only [mapped_at,mappings_same,record_mapping,edit]
  by_cases here : other = va <;> simp [here,mapped_at]

end ArmOS.TableCalls

