import ArmOS.TableCalls

/-!
Runs of the calls on a user address space. Between two calls the rest of the
kernel may do what it likes with memory that is not a table of this space; the
space may get another ASID when it is activated.
-/
namespace ArmOS.TableRuns
open Vma Frames PageTables Keyed Translation TableCalls Runs Function List Option
open Physical (PAGE_SIZE)
open Vm (page_of Mapping Space)

inductive Call where
  | map_new_page (virtual_address : Nat) (flags : Flags)
  | map_page (virtual_address physical_address : Nat) (flags : Flags)
  | protect_page (virtual_address : Nat) (flags : Flags)
  | unmap_page (virtual_address : Nat)

/-- The call, with the physical address it reports. -/
def call (m : Machine) : Call → Machine × Except Int Nat
  | .map_new_page va flags => arm64_user_vm_map_new_page m va flags
  | .map_page va pa flags => arm64_user_vm_map_page m va pa flags
  | .protect_page va flags => arm64_user_vm_protect_page m va flags
  | .unmap_page va => arm64_user_vm_unmap_page m va

def Call.maps : Call → Bool
  | .map_new_page _ _ => true
  | .map_page _ _ _ => true
  | .protect_page _ _ => false
  | .unmap_page _ => false

/-- A physical address has 48 bits. -/
def Call.Addressable : Call → Prop
  | .map_page _ pa _ => pa < 2 ^ 48
  | _ => True

/-- The pages that are mapped, each with its frame and its flags. -/
abbrev Mapped := Nat → Option (Nat × Flags)

/-- What a call that succeeds makes of the pages. -/
def effect (mapped : Mapped) : Call → Except Int Nat → Mapped
  | _, .error _ => mapped
  | .map_new_page va flags, .ok page => update mapped va (some (page,flags))
  | .map_page va pa flags, .ok _ => update mapped va (some (pa,{ flags with lazy := false }))
  | .protect_page va flags, .ok _ =>
    update mapped (page_of va) ((mapped (page_of va)).map fun x => (x.1,{ flags with lazy := false }))
  | .unmap_page va, .ok _ => update mapped va none

inductive Label where
  | called (c : Call)
  | other

/-- A call, or anything that leaves the tables alone. -/
inductive Step (platform : Platform) : Machine × Mapped → Label → Machine × Mapped → Prop
  | called (m : Machine) (mapped : Mapped) (c : Call) (addressable : c.Addressable) :
      Step platform (m,mapped) (.called c) ((call m c).1,effect mapped c (call m c).2)
  | other (m : Machine) (mapped : Mapped) (pool : Pool) (memory : Memory) (asid : Nat)
      (held : ∀ t ∈ tables platform m.vm, Held pool t) (device : pool.device = m.pool.device)
      (untouched : ∀ t ∈ tables platform m.vm, memory t = m.memory t) (known : arm64_asid_hw asid ≠ 0) :
      Step platform (m,mapped) .other (⟨pool,memory,{ m.vm with asid := asid }⟩,mapped)

/-- Frames have 48-bit addresses, and a kernel table has blocks for the kernel only. -/
structure Ready (platform : Platform) (pool : Pool) (memory : Memory) : Prop where
  addressable : ∀ page, 2 ^ 48 ≤ page → pool.device page = true
  kernel : ∀ low ∈ kernel_tables platform, table_address_valid low = true ∧ Held pool low ∧
    ∀ j, (memory low j).valid = true → (memory low j).table_page = false ∧ (memory low j).ap_el0 = false
structure Consistent (platform : Platform) (s : Machine × Mapped) : Prop where
  sound : Sound platform s.1
  live : Live s.1.vm
  mapped : mapped_at s.1.vm = s.2

variable {platform : Platform} {m : Machine} {va page : Nat} {s : Space} {memory : Memory}

theorem init_consistent {pool : Pool} {asid : Nat} (ready : Ready platform pool memory) (known : arm64_asid_hw asid ≠ 0)
    (made : arm64_user_vm_init platform pool memory asid = .ok m) : Consistent platform (m,fun _ => none) := by
  rw [arm64_user_vm_init] at made
  split at made
  · cases made
  rcases allocated : allocate_page pool with ⟨pool',_ | l1⟩
  · simp only [allocated] at made
    cases made
  simp only [allocated,arm64_mmu_prepare_user_ttbr0] at made
  rcases valid : table_address_valid l1 with _ | _
  · simp [valid] at made
  simp only [valid,Bool.not_true,Bool.false_eq_true,if_false] at made
  cases made
  obtain ⟨kept,free,held⟩ := allocate_some allocated
  have apart : ∀ low ∈ kernel_tables platform, low ≠ l1 := by
    rintro low inside rfl
    exact free_not_held free (ready.kernel low inside).2.1
  have single : (kernel_tables platform).Nodup := by cases platform <;> simp [kernel_tables]
  refine ⟨⟨⟨known,.nil,.nil,.nil,?_,?_,?_,by simp,by simp,by simp,by simp⟩,⟨?_,by simp,by simp,?_⟩,?_,?_⟩,
    ⟨by simp,by simp⟩,rfl⟩
  · grind [tables,listed]
  · intro t member
    simp only [tables,listed,map_nil,append_nil,mem_append,mem_singleton] at member
    rcases member with inside | rfl
    · exact (ready.kernel t inside).1
    · exact valid
  · intro t member
    simp only [listed,map_nil,append_nil,mem_singleton] at member
    rw [member]
    exact free.1
  · intro i _
    simp [find,table_entry]
  · intro low inside j
    simpa [apart low inside] using (ready.kernel low inside).2.2 j
  · intro t member
    simp only [tables,listed,map_nil,append_nil,mem_append,mem_singleton] at member
    rcases member with inside | rfl
    · exact kept.held t (ready.kernel t inside).2.1
    · exact held
  intro page high
  rw [kept.device]
  exact ready.addressable page high

/-- A call keeps the space consistent; a failed mapping changes no list. -/
theorem call_consistent {mapped : Mapped}
    (consistent : Consistent platform (m,mapped)) (c : Call) (addressable : c.Addressable) :
    Consistent platform ((call m c).1,effect mapped c (call m c).2) ∧
      ∀ code, c.maps = true → (call m c).2 = .error code → SameLists m.vm (call m c).1.vm := by
  obtain ⟨sound,live,meaning⟩ := consistent
  dsimp only at sound live meaning
  subst meaning
  cases c with
  | map_new_page va flags =>
    have ends := map_new_page_ends va sound live flags
    simp only [call]
    rcases result : (arm64_user_vm_map_new_page m va flags).2 with code | page
    all_goals rw [result] at ends
    · exact ⟨⟨ends.1,ends.2.live live,ends.2.mapped⟩,fun _ _ _ => ends.2⟩
    · exact ⟨⟨ends.1,ends.2.1,ends.2.2⟩,nofun⟩
  | map_page va pa flags =>
    obtain ⟨ends,given⟩ := map_page_ends va sound live addressable flags
    simp only [call]
    rcases result : (arm64_user_vm_map_page m va pa flags).2 with code | page
    all_goals rw [result] at ends
    · exact ⟨⟨ends.1,ends.2.live live,ends.2.mapped⟩,fun _ _ _ => ends.2⟩
    rw [given page result] at ends
    exact ⟨⟨ends.1,ends.2.1,ends.2.2⟩,nofun⟩
  | protect_page va flags =>
    have ends := protect_page_ends va sound live flags
    refine ⟨?_,fun _ maps => nomatch maps⟩
    simp only [call]
    rcases result : (arm64_user_vm_protect_page m va flags).2 with code | page
    all_goals rw [result] at ends
    · rw [ends]
      exact ⟨sound,live,rfl⟩
    · exact ⟨ends.1,ends.2.1,ends.2.2⟩
  | unmap_page va =>
    have ends := unmap_page_ends va sound live
    refine ⟨?_,fun _ maps => nomatch maps⟩
    simp only [call]
    rcases result : (arm64_user_vm_unmap_page m va).2 with code | page
    all_goals rw [result] at ends
    · rw [ends]
      exact ⟨sound,live,rfl⟩
    · exact ⟨ends.1,ends.2.1,ends.2.2⟩

theorem step_consistent (s : Machine × Mapped) (l : Label) (t : Machine × Mapped)
    (consistent : Consistent platform s) (taken : Step platform s l t) : Consistent platform t := by
  cases taken with
  | called m mapped c addressable => exact (call_consistent consistent c addressable).1
  | other m mapped pool memory asid held device untouched known =>
    obtain ⟨⟨shape,filled,_,addressable⟩,live,meaning⟩ := consistent
    have filled' := filled.outside untouched
    refine ⟨⟨{ shape with asid := known, recorded := fun x member => (shape.recorded x member).keep rfl },
      { filled' with },held,fun page high => ?_⟩,⟨live.l3,live.l2⟩,meaning⟩
    rw [device]
    exact addressable page high

/-- An entry of one table leads to another. -/
def Leads (memory : Memory) (parent index child : Nat) : Prop :=
  (memory parent index).valid = true ∧ (memory parent index).table_page = true ∧ (memory parent index).address = child

/-- One of the entries of a table is valid. -/
def InUse (memory : Memory) (table : Nat) : Prop := ∃ index < 512, (memory table index).valid = true
theorem leads_of_entry {parent index child : Nat} (valid : table_address_valid child = true)
    (entry : memory parent index = table_descriptor child) : Leads memory parent index child := by
  rw [Leads,entry]
  exact ⟨rfl,rfl,table_mask_of_valid valid⟩

variable {l2 : L2Table}

theorem l2_leads (sound : Sound platform m)
    (member : l2 ∈ m.vm.l2_tables) : Leads m.memory m.vm.l1 l2.l1_index l2.table := by
  refine leads_of_entry (sound.shape.l2_valid member) ?_
  rw [sound.filled.root _ (sound.shape.l2_index l2 member).1,sound.shape.l2_keys.find_of_mem member]
  rfl

variable {l3 : L3Table}

theorem l3_leads (sound : Sound platform m) (parent : l2 ∈ m.vm.l2_tables) (key : l2.l1_index = l3.l1_index)
    (member : l3 ∈ m.vm.l3_tables) : Leads m.memory l2.table l3.l2_index l3.table := by
  refine leads_of_entry (sound.shape.l3_valid member) ?_
  have found := sound.shape.l3_keys.find_of_mem member
  rw [L3Table.place] at found
  rw [sound.filled.middle l2 parent _ (sound.shape.l3_index l3 member).1,key,found]
  rfl

theorem l3_in_use (sound : Sound platform m) (live : Live m.vm)
    (member : l3 ∈ m.vm.l3_tables) : InUse m.memory l3.table := by
  obtain ⟨x,inside,here⟩ := live.l3 l3 member
  have recorded := sound.shape.recorded x inside
  have small := (index_lt x.virtual_address).2.2
  refine ⟨l3_index x.virtual_address,small,?_⟩
  rw [sound.filled.leaves l3 member _ small,← here,← page_of_parts recorded.low,page_of_aligned recorded.aligned,
    sound.shape.pages.find_of_mem inside]
  rfl

/-- In every run on a new address space the walk gives the last mapping of every page;
    every recorded table is reached, in use and recorded once; and a mapping call that
    fails leaves everything as it was. -/
theorem walk_gives_last_mapping {platform : Platform} {pool : Pool} {memory : Memory} {asid : Nat} {start : Machine}
    {labels : List Label} {s : Machine × Mapped} (ready : Ready platform pool memory)
    (known : arm64_asid_hw asid ≠ 0) (made : arm64_user_vm_init platform pool memory asid = .ok start)
    (run : Run (Step platform) (start,fun _ => none) labels s) :
    (∀ va, walk s.1.memory s.1.vm.l1 va = if va < 2 ^ 39 then (s.2 (page_of va)).map (translate va) else none) ∧
    (∀ l2 ∈ s.1.vm.l2_tables, Leads s.1.memory s.1.vm.l1 l2.l1_index l2.table ∧ InUse s.1.memory l2.table) ∧
    (∀ l3 ∈ s.1.vm.l3_tables, (∃ l2 ∈ s.1.vm.l2_tables, l2.l1_index = l3.l1_index ∧
      Leads s.1.memory l2.table l3.l2_index l3.table) ∧ InUse s.1.memory l3.table) ∧
    (s.1.vm.l1 :: listed s.1.vm).Nodup ∧
    ∀ c code, c.maps = true → c.Addressable → (call s.1 c).2 = .error code →
      SameLists s.1.vm (call s.1 c).1.vm ∧
      ∀ va, walk (call s.1 c).1.memory (call s.1 c).1.vm.l1 va = walk s.1.memory s.1.vm.l1 va := by
  have consistent := run.invariant step_consistent (init_consistent ready known made)
  obtain ⟨m,mapped⟩ := s
  have walks : ∀ s : Machine × Mapped, Consistent platform s → ∀ va, walk s.1.memory s.1.vm.l1 va =
      if va < 2 ^ 39 then (s.2 (page_of va)).map (translate va) else none := by
    intro s consistent va
    by_cases low : va < 2 ^ 39
    · rw [if_pos low,walk_mapped consistent.sound.shape consistent.sound.filled low,consistent.mapped]
    · rw [if_neg low,walk,if_pos (not_lt.mp low)]
  obtain ⟨sound,live,_⟩ := id consistent
  refine ⟨walks _ consistent,?_,?_,?_,?_⟩
  · intro l2 member
    obtain ⟨l3,below,key⟩ := live.l2 l2 member
    exact ⟨l2_leads sound member,l3.l2_index,(sound.shape.l3_index l3 below).1,(l3_leads sound member key.symm below).1⟩
  · intro l3 member
    obtain ⟨_,l2,parent,key⟩ := sound.shape.l3_index l3 member
    exact ⟨⟨l2,parent,key,l3_leads sound parent key member⟩,l3_in_use sound live member⟩
  · exact (nodup_append.mp sound.shape.nodup).2.1
  intro c code maps addressable failed
  obtain ⟨next,same⟩ := call_consistent consistent c addressable
  refine ⟨same code maps failed,fun va => ?_⟩
  have after := walks _ next va
  dsimp only at after
  rw [failed,effect] at after
  rw [after,walks _ consistent]

/-! ### The address space above

The model of the system calls keeps a space as the list of its mappings. -/

def value (x : Mapping) : Nat × Flags := (x.physical_address,x.flags)
abbrev list_find := find Mapping.virtual_address

/-- The list holds the pages. -/
structure Backs (mapped : Mapped) (s : Space) : Prop where
  pages : Distinct Mapping.virtual_address s.mappings
  same : ∀ page, mapped page = (list_find s.mappings page).map value

/-- The call on the list, with the result of the tables. -/
def list_call (s : Space) : Call → Except Int Nat → Option Space
  | _, .error _ => some s
  | .map_new_page va flags, .ok page => Vm.arm64_user_vm_map_page s va page flags
  | .map_page va pa flags, .ok _ => Vm.arm64_user_vm_map_page s va pa flags
  | .protect_page va flags, .ok _ => Vm.protect_page s va fun _ => flags
  | .unmap_page va, .ok _ => Vm.unmap_user_page s va

variable {mapped : Mapped} {flags : Flags}

theorem Backs.edit {mappings : List Mapping} {x : Option Mapping} (backs : Backs mapped s)
    (distinct : Distinct Mapping.virtual_address mappings)
    (found : ∀ other, list_find mappings other = if other = page then x else list_find s.mappings other) :
    Backs (update mapped page (x.map value)) { s with mappings := mappings } := by
  refine ⟨distinct,fun other => ?_⟩
  rw [found,update_apply]
  split
  · rfl
  · exact backs.same other

theorem Backs.map_page {set : Flags} (pa : Nat) (backs : Backs mapped s) (eager : { flags with lazy := false } = set)
    (aligned : va % PAGE_SIZE = 0) (absent : (list_find s.mappings va).isSome = false)
    (valid : Vm.arm64_user_vm_flags_valid set = true) :
    ∃ t, Vm.arm64_user_vm_map_page s va pa flags = some t ∧ Backs (update mapped va (some (pa,set))) t := by
  rw [isSome_eq_false_iff,isNone_iff_eq_none] at absent
  refine ⟨_,?_,backs.edit (backs.pages.append (r := ⟨va,pa,set⟩) absent) (find_append absent)⟩
  simp [Vm.arm64_user_vm_map_page,eager,valid,Vm.lookup,page_of_aligned aligned,absent]

/-- A call on the tables is the call on the list. -/
theorem call_backs (sound : Sound platform m) (meaning : mapped_at m.vm = mapped) (backs : Backs mapped s) (c : Call) :
    ∃ t, list_call s c (call m c).2 = some t ∧ Backs (effect mapped c (call m c).2) t := by
  subst meaning
  have alike (page : Nat) : (arm64_user_vm_find_mapping m.vm page).isSome = (list_find s.mappings page).isSome := by
    simpa [mapped_at,arm64_user_vm_find_mapping] using congrArg isSome (backs.same page)
  rcases result : (call m c).2 with code | page
  · cases c <;> exact ⟨s,rfl,backs⟩
  cases c with
  | map_new_page va flags =>
    rw [call,arm64_user_vm_map_new_page] at result
    obtain ⟨aligned,valid,eager,empty⟩ : va % PAGE_SIZE = 0 ∧ Vm.arm64_user_vm_flags_valid flags = true ∧
        flags.lazy = false ∧ (arm64_user_vm_find_mapping m.vm va).isSome = false := by grind
    exact backs.map_page page (by cases flags; cases eager; rfl) aligned (alike va ▸ empty) valid
  | map_page va pa flags =>
    rw [call,arm64_user_vm_map_page] at result
    obtain ⟨validated,aligned,valid,unmapped⟩ : arm64_user_vm_validate_identity m.vm = true ∧ va % PAGE_SIZE = 0 ∧
        Vm.arm64_user_vm_flags_valid { flags with lazy := false } = true ∧
        (arm64_user_vm_find_mapping m.vm va).any (fun x => x.physical_address ≠ 0) = false := by grind
    have resident := (validate_identity_iff sound.shape).mp validated
    refine backs.map_page pa rfl aligned ?_ valid
    rw [← alike]
    rcases found : arm64_user_vm_find_mapping m.vm va with _ | x
    · rfl
    · simp [found,resident x (find_mem found)] at unmapped
  | protect_page va flags =>
    rw [call,arm64_user_vm_protect_page] at result
    obtain ⟨valid,there⟩ : Vm.arm64_user_vm_flags_valid { flags with lazy := false } = true ∧
        (arm64_user_vm_find_mapping m.vm (page_of va)).isSome = true := by grind
    obtain ⟨x,found⟩ := isSome_iff_exists.mp (alike _ ▸ there)
    have kept (y : Mapping) : ({ y with flags := { flags with lazy := false } } : Mapping).virtual_address = _ := rfl
    refine ⟨_,by simp only [list_call,Vm.protect_page,Vm.lookup,found,valid]; rfl,backs.pages.change kept _,fun other => ?_⟩
    rw [list_find,find_change kept,effect,update_apply]
    split
    · subst other
      simp [backs.same,found,value]
    · exact backs.same other
  | unmap_page va =>
    rw [call,arm64_user_vm_unmap_page] at result
    obtain ⟨aligned,there⟩ : va % PAGE_SIZE = 0 ∧ (arm64_user_vm_find_mapping m.vm va).isSome = true := by grind
    obtain ⟨x,found⟩ := isSome_iff_exists.mp (alike _ ▸ there)
    refine ⟨_,?_,backs.edit (backs.pages.erase va) (backs.pages.find_erase va)⟩
    simp [list_call,Vm.unmap_user_page,Vm.lookup,page_of_aligned aligned,found]

/-- A step on both the tables and the list. -/
def Both (platform : Platform) (s : (Machine × Mapped) × Space) (l : Label) (t : (Machine × Mapped) × Space) : Prop :=
  Step platform s.1 l t.1 ∧
    match l with
    | .called c => list_call s.2 c (call s.1.1 c).2 = some t.2
    | .other => t.2 = s.2

/-- Every run on the tables is one on the list, and the walk finds what the list says. -/
theorem tables_refine_list {pool : Pool} {asid : Nat} {labels : List Label} {s : Machine × Mapped}
    (ready : Ready platform pool memory) (known : arm64_asid_hw asid ≠ 0)
    (made : arm64_user_vm_init platform pool memory asid = .ok m) (run : Run (Step platform) (m,fun _ => none) labels s) :
    ∃ space, Run (Both platform) ((m,fun _ => none),Space.initial) labels (s,space) ∧
      ∀ va < 2 ^ 39, walk s.1.memory s.1.vm.l1 va = ((Vm.lookup space va).map value).map (translate va) := by
  let R (s : Machine × Mapped) (both : (Machine × Mapped) × Space) : Prop :=
    both.1 = s ∧ Consistent platform s ∧ Backs s.2 both.2
  have kept : ∀ s l t both, R s both → Step platform s l t → ∃ both', Both platform both l both' ∧ R t both' := by
    rintro s l t ⟨_,space⟩ ⟨rfl,consistent,backs⟩ taken
    have next := step_consistent _ _ _ consistent taken
    cases id taken with
    | called m mapped c addressable =>
      obtain ⟨space',listed,after⟩ := call_backs consistent.sound consistent.mapped backs c
      exact ⟨(_,space'),⟨taken,listed⟩,rfl,next,after⟩
    | other => exact ⟨(_,space),⟨taken,rfl⟩,rfl,next,backs⟩
  have first : R (m,fun _ => none) ((m,fun _ => none),Space.initial) :=
    ⟨rfl,init_consistent ready known made,.nil,fun _ => rfl⟩
  obtain ⟨⟨_,space⟩,both,rfl,consistent,backs⟩ := run.simulate kept first
  refine ⟨space,both,fun va low => ?_⟩
  rw [walk_mapped consistent.sound.shape consistent.sound.filled low,consistent.mapped,backs.same]
  rfl

/-- A pool with frames below `2 ^ 48`, all of them free. -/
def sample_pool : Pool := ⟨fun _ => 0,fun _ _ => 0,fun page => 2 ^ 48 ≤ page,[0x1000,1,1,0x2000,1,0x3000,0x4000]⟩
def sample_memory : Memory := fun _ _ => Descriptor.zero
def sample_start : Machine :=
  ⟨take (drawn sample_pool) 0x1000,update sample_memory 0x1000 Platform.qemu_virt.root_entry,
    ⟨0x1000,0x101,[],0,[],0,[],0⟩⟩
def sample_call : Call := .map_new_page 0x80000000 Flags.read_write

/-- A page is mapped with two new tables; then memory is out. -/
theorem walk_gives_last_mapping_sample :
    walk (call sample_start sample_call).1.memory (call sample_start sample_call).1.vm.l1 0x80000123 =
      some ⟨0x4123,true,false⟩ ∧
    SameLists (call sample_start sample_call).1.vm
      (call (call sample_start sample_call).1 (.map_page 0xC0000000 0x5000 Flags.read_write)).1.vm := by
  have ready : Ready .qemu_virt sample_pool sample_memory := ⟨fun page high => decide_eq_true high,by simp [kernel_tables]⟩
  have made : arm64_user_vm_init .qemu_virt sample_pool sample_memory 0x101 = .ok sample_start := rfl
  have mapped : (call sample_start sample_call).2 = .ok 0x4000 := rfl
  have run : Run (Step .qemu_virt) (sample_start,fun _ => none) [.called sample_call] _ :=
    .single (.called sample_start _ sample_call trivial)
  have small : (Call.map_page 0xC0000000 0x5000 Flags.read_write).Addressable := by
    norm_num [Call.Addressable]
  obtain ⟨walks,_,_,_,fails⟩ := walk_gives_last_mapping ready (by decide) made run
  refine ⟨?_,(fails (.map_page 0xC0000000 0x5000 Flags.read_write) (-4) rfl small rfl).1⟩
  have here := walks 0x80000123
  dsimp only at here
  rw [here,mapped]
  decide

theorem tables_refine_list_sample : ∃ s space,
    Run (Both .qemu_virt) ((sample_start,fun _ => none),Space.initial) [.called sample_call] (s,space) ∧
    walk s.1.memory s.1.vm.l1 0x80000123 = ((Vm.lookup space 0x80000123).map value).map
        (Translation.translate 0x80000123) := by
  have ready : Ready .qemu_virt sample_pool sample_memory := ⟨fun page high => decide_eq_true high,by simp [kernel_tables]⟩
  have made : arm64_user_vm_init .qemu_virt sample_pool sample_memory 0x101 = .ok sample_start := rfl
  obtain ⟨space,both,walks⟩ := tables_refine_list ready (by decide) made (.single (.called _ _ sample_call trivial))
  exact ⟨_,space,both,walks _ (by decide)⟩

end ArmOS.TableRuns
