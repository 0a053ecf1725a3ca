import ArmOS.Vm

/-!
The translation tables of a user address space (`arch/arm64/mmu/user_vm.c` over
`arch/arm64/mmu/mmu.c`): three levels, the inventory of the tables below the root,
and the calls on a page. Cache and TLB maintenance and the fields that only identify
the space are left out.
-/
namespace ArmOS.PageTables
open Words Vma Frames Function
open Physical (PAGE_SIZE)
open Vm (Mapping arm64_user_vm_flags_valid)

/-! ### Entries -/

/-- The bits of an entry that are set or tested, and its address. -/
structure Descriptor where
  (valid table_page ap_el0 ap_readonly uxn : Bool)
  address : Nat
deriving DecidableEq, Repr
def Descriptor.zero : Descriptor := ⟨false,false,false,false,false,0⟩

/-- `x & ARM64_TABLE_MASK`. -/
def table_mask (x : Nat) : Nat := align_down (x % 2 ^ 48) PAGE_SIZE
def table_descriptor (table : Nat) : Descriptor := ⟨true,true,false,false,false,table_mask table⟩
def user_page_descriptor (physical_address : Nat) (flags : Flags) : Descriptor :=
  ⟨true,true,true,!flags.write,!flags.exec,table_mask physical_address⟩
abbrev Memory := Nat → Nat → Descriptor
def set_entry (memory : Memory) (table index : Nat) (entry : Descriptor) : Memory :=
  update memory table (update (memory table) index entry)

/-- The loop that zeroes the entries of a table. -/
def clear_table (memory : Memory) (table : Nat) : Memory := update memory table fun _ => Descriptor.zero
def l1_index (virtual_address : Nat) : Nat := virtual_address / 2 ^ 30 % 512
def l2_index (virtual_address : Nat) : Nat := virtual_address / 2 ^ 21 % 512
def l3_index (virtual_address : Nat) : Nat := virtual_address / 2 ^ 12 % 512

/-- What an access from user mode at an address reaches. -/
structure Translation where
  address : Nat
  (write exec : Bool)
deriving DecidableEq, Repr

/-- A page or block of `size` bytes for user mode. -/
def leaf (entry : Descriptor) (size virtual_address : Nat) : Option Translation :=
  if entry.ap_el0 then some ⟨entry.address + virtual_address % size,!entry.ap_readonly,!entry.uxn⟩ else none

/-- The walk for 39 bits; an upper entry that is no table is a block. -/
def walk (memory : Memory) (l1 virtual_address : Nat) : Option Translation :=
  let d1 := memory l1 (l1_index virtual_address)
  let d2 := memory d1.address (l2_index virtual_address)
  let d3 := memory d2.address (l3_index virtual_address)
  if 2 ^ 39 ≤ virtual_address then none
  else if !d1.valid then none
  else if !d1.table_page then leaf d1 (2 ^ 30) virtual_address
  else if !d2.valid then none
  else if !d2.table_page then leaf d2 (2 ^ 21) virtual_address
  else if !d3.valid || !d3.table_page then none
  else leaf d3 (2 ^ 12) virtual_address

/-! ### `mmu.c` -/

def table_address_valid (address : Nat) : Bool := address % PAGE_SIZE = 0 && table_mask address = address

/-- The kernel's entry: a block on QEMU, a table on the Raspberry Pi. -/
inductive Platform where
  | qemu_virt
  | raspberrypi (arm64_identity_l2_low : Nat)
def Platform.kernel_index : Platform → Nat
  | qemu_virt => 1
  | raspberrypi _ => 0
def Platform.kernel_entry : Platform → Descriptor
  | qemu_virt => ⟨true,false,false,false,false,2 ^ 30⟩
  | raspberrypi low => table_descriptor low

/-- A root entry of `arm64_mmu_prepare_user_ttbr0`. -/
def Platform.root_entry (platform : Platform) (index : Nat) : Descriptor :=
  if index = platform.kernel_index then platform.kernel_entry else Descriptor.zero
def arm64_mmu_prepare_user_ttbr0 (platform : Platform) (memory : Memory) (l1_address : Nat) : Except Int Memory :=
  if !table_address_valid l1_address then .error (-1)
  else .ok (update memory l1_address platform.root_entry)

/-- `arm64_mmu_install_user_l2` and `_l3`, by the index in the parent. -/
def install_user_table (memory : Memory) (parent child virtual_address index : Nat) : Except Int Memory :=
  if !table_address_valid parent || !table_address_valid child || parent = child || 2 ^ 39 ≤ virtual_address then
    .error (-1)
  else if (memory parent index).valid then .error (-2)
  else .ok (set_entry (clear_table memory child) parent index (table_descriptor child))

def arm64_mmu_install_user_l2 (memory : Memory) (l1_address l2_address virtual_address : Nat) : Except Int Memory :=
  install_user_table memory l1_address l2_address virtual_address (l1_index virtual_address)
def arm64_mmu_install_user_l3 (memory : Memory) (l2_address l3_address virtual_address : Nat) : Except Int Memory :=
  install_user_table memory l2_address l3_address virtual_address (l2_index virtual_address)

/-- `user_page_flags_valid` on the masked flags. -/
def user_page_flags_valid (flags : Flags) : Bool := flags.read && !(flags.write && flags.exec)
def asid_valid (asid : Nat) : Bool := asid ≠ 0 && asid ≤ 255

def arm64_mmu_map_user_l3_page (memory : Memory) (l3_address virtual_address physical_address : Nat) (flags : Flags)
    (asid : Nat) : Except Int Memory :=
  if !table_address_valid l3_address || virtual_address % PAGE_SIZE ≠ 0 || physical_address % PAGE_SIZE ≠ 0 ||
      2 ^ 39 ≤ virtual_address || !user_page_flags_valid flags || !asid_valid asid then .error (-1)
  else if (memory l3_address (l3_index virtual_address)).valid then .error (-2)
  else .ok (set_entry memory l3_address (l3_index virtual_address) (user_page_descriptor physical_address flags))

/-- `arm64_mmu_unmap_user_l3_page` with the address it returns. -/
def arm64_mmu_unmap_user_l3_page (memory : Memory) (l3_address virtual_address asid : Nat) :
    Except Int (Memory × Nat) :=
  let descriptor := memory l3_address (l3_index virtual_address)
  if !table_address_valid l3_address || virtual_address % PAGE_SIZE ≠ 0 || 2 ^ 39 ≤ virtual_address ||
      !asid_valid asid then .error (-1)
  else if !(descriptor.valid && descriptor.table_page) then .error (-2)
  else .ok (set_entry memory l3_address (l3_index virtual_address) Descriptor.zero,descriptor.address)

def user_table_is_empty (memory : Memory) (table : Nat) : Bool :=
  (List.range 512).all fun index => !(memory table index).valid

/-- `arm64_mmu_remove_user_l3` and `arm64_mmu_remove_user_l2`. -/
def remove_user_table (memory : Memory) (parent child index virtual_address asid : Nat) : Except Int Memory :=
  let descriptor := memory parent index
  if !table_address_valid parent || !table_address_valid child || parent = child ||
      virtual_address % PAGE_SIZE ≠ 0 || 2 ^ 39 ≤ virtual_address || !asid_valid asid then .error (-1)
  else if !(descriptor.valid && descriptor.table_page) || descriptor.address ≠ child then .error (-1)
  else if !user_table_is_empty memory child then .error (-2)
  else .ok (set_entry memory parent index Descriptor.zero)

def arm64_mmu_remove_user_l3 (memory : Memory) (l2_address l3_address virtual_address asid : Nat) : Except Int Memory :=
  remove_user_table memory l2_address l3_address (l2_index virtual_address) virtual_address asid
def arm64_mmu_remove_user_l2 (memory : Memory) (l1_address l2_address virtual_address asid : Nat) : Except Int Memory :=
  remove_user_table memory l1_address l2_address (l1_index virtual_address) virtual_address asid

/-! ### `user_vm.c` -/

structure L2Table where
  (l1_index table : Nat)
deriving DecidableEq, Repr
structure L3Table where
  (l1_index l2_index table : Nat)
deriving DecidableEq, Repr

/-- The two indices that `arm64_user_vm_find_l3` compares. -/
def L3Table.place (t : L3Table) : Nat × Nat := (t.l1_index,t.l2_index)

/-- `arm64_user_vm_t`; the counts are the lengths of the lists. -/
structure UserVm where
  (l1 asid : Nat)
  mappings : List Mapping
  mapping_capacity : Nat
  l2_tables : List L2Table
  l2_table_capacity : Nat
  l3_tables : List L3Table
  l3_table_capacity : Nat

structure Machine where
  pool : Pool
  memory : Memory
  vm : UserVm
def arm64_asid_hw (asid : Nat) : Nat := asid % 256

/-- The indices of the tables for an address. -/
def place (virtual_address : Nat) : Nat × Nat := (l1_index virtual_address,l2_index virtual_address)
def arm64_user_vm_find_l2 (vm : UserVm) (virtual_address : Nat) : Option L2Table :=
  Keyed.find L2Table.l1_index vm.l2_tables (l1_index virtual_address)
def arm64_user_vm_find_l3 (vm : UserVm) (virtual_address : Nat) : Option L3Table :=
  Keyed.find L3Table.place vm.l3_tables (place virtual_address)

/-- `arm64_user_vm_mapping_index` with the mapping it finds. -/
def arm64_user_vm_find_mapping (vm : UserVm) (virtual_address : Nat) : Option Mapping :=
  Keyed.find Mapping.virtual_address vm.mappings virtual_address

/-- The loop that doubles a capacity; 32 doublings are enough. -/
def double_until (required : Nat) : Nat → Nat → Option Nat
  | 0, _ => none
  | turns + 1, capacity =>
    if required ≤ capacity then some capacity
    else if 0xFFFFFFFF / 2 < capacity then none
    else double_until required turns (capacity * 2)

/-- The capacity after `arm64_user_vm_reserve_mappings`, where there is memory for it. -/
def grow (pool : Pool) (capacity first required : Nat) : Pool × Option Nat :=
  if required ≤ capacity then (pool,some capacity)
  else
    match double_until required 33 (if capacity = 0 then first else capacity) with
    | none => (pool,none)
    | some capacity => (drawn pool,if kmalloc pool then some capacity else none)

def arm64_user_vm_reserve_mappings (m : Machine) (required : Nat) : Machine × Bool :=
  match grow m.pool m.vm.mapping_capacity 32 required with
  | (pool,none) => ({ m with pool := pool },false)
  | (pool,some capacity) => ({ m with pool := pool, vm := { m.vm with mapping_capacity := capacity } },true)
def arm64_user_vm_reserve_l2_tables (m : Machine) (required : Nat) : Machine × Bool :=
  match grow m.pool m.vm.l2_table_capacity 4 required with
  | (pool,none) => ({ m with pool := pool },false)
  | (pool,some capacity) => ({ m with pool := pool, vm := { m.vm with l2_table_capacity := capacity } },true)
def arm64_user_vm_reserve_l3_tables (m : Machine) (required : Nat) : Machine × Bool :=
  match grow m.pool m.vm.l3_table_capacity 4 required with
  | (pool,none) => ({ m with pool := pool },false)
  | (pool,some capacity) => ({ m with pool := pool, vm := { m.vm with l3_table_capacity := capacity } },true)
def arm64_user_vm_l3_has_mapping (vm : UserVm) (at_place : Nat × Nat) : Bool :=
  vm.mappings.any fun mapping => mapping.physical_address ≠ 0 && place mapping.virtual_address = at_place
def arm64_user_vm_l2_has_l3 (vm : UserVm) (index : Nat) : Bool := vm.l3_tables.any fun t => t.l1_index = index

/-- The first half of `arm64_user_vm_reclaim_empty_tables`. -/
def reclaim_l3 (m : Machine) (virtual_address : Nat) : Machine × Int :=
  match arm64_user_vm_find_l3 m.vm virtual_address with
  | none => (m,0)
  | some l3 =>
    if arm64_user_vm_l3_has_mapping m.vm (place virtual_address) then (m,0)
    else
      match arm64_user_vm_find_l2 m.vm virtual_address with
      | none => (m,-1)
      | some l2 =>
        match arm64_mmu_remove_user_l3 m.memory l2.table l3.table virtual_address (arm64_asid_hw m.vm.asid) with
        | .error _ => (m,-1)
        | .ok memory =>
          ({ m with
            pool := free_page m.pool l3.table
            memory := memory
            vm := { m.vm with l3_tables := Keyed.swap_out L3Table.table m.vm.l3_tables l3.table } },0)

/-- The second half of `arm64_user_vm_reclaim_empty_tables`. -/
def reclaim_l2 (m : Machine) (virtual_address : Nat) : Machine × Int :=
  match arm64_user_vm_find_l2 m.vm virtual_address with
  | none => (m,0)
  | some l2 =>
    if arm64_user_vm_l2_has_l3 m.vm (l1_index virtual_address) then (m,0)
    else
      match arm64_mmu_remove_user_l2 m.memory m.vm.l1 l2.table virtual_address (arm64_asid_hw m.vm.asid) with
      | .error _ => (m,-4)
      | .ok memory =>
        ({ m with
          pool := free_page m.pool l2.table
          memory := memory
          vm := { m.vm with l2_tables := Keyed.swap_out L2Table.table m.vm.l2_tables l2.table } },0)

def arm64_user_vm_reclaim_empty_tables (m : Machine) (virtual_address : Nat) : Machine × Int :=
  match reclaim_l3 m virtual_address with
  | (m,0) => reclaim_l2 m virtual_address
  | failed => failed

/-- What both inventories ask of an entry's table. -/
def listed_table_valid (vm : UserVm) (table : Nat) : Bool :=
  table ≠ 0 && table % PAGE_SIZE = 0 && table ≠ vm.l1

def arm64_user_vm_validate_tables (vm : UserVm) : Bool :=
  vm.l2_tables.length ≤ vm.l2_table_capacity && vm.l3_tables.length ≤ vm.l3_table_capacity &&
  vm.l2_tables.all (fun t => t.l1_index < 512 && listed_table_valid vm t.table) &&
  decide (vm.l2_tables.Pairwise fun first second => first.l1_index ≠ second.l1_index ∧ first.table ≠ second.table) &&
  vm.l3_tables.all (fun t => t.l1_index < 512 && t.l2_index < 512 && listed_table_valid vm t.table &&
    vm.l2_tables.any (fun l2 => l2.l1_index = t.l1_index) && vm.l2_tables.all (fun l2 => t.table ≠ l2.table)) &&
  decide (vm.l3_tables.Pairwise fun first second => first.place ≠ second.place ∧ first.table ≠ second.table)

def arm64_user_vm_validate_residents (vm : UserVm) : Bool :=
  vm.mappings.length ≤ vm.mapping_capacity &&
  vm.mappings.all fun mapping => mapping.virtual_address % PAGE_SIZE = 0 && mapping.physical_address ≠ 0 &&
    mapping.physical_address % PAGE_SIZE = 0 && arm64_user_vm_flags_valid mapping.flags
def arm64_user_vm_validate_identity (vm : UserVm) : Bool :=
  vm.l1 ≠ 0 && vm.asid ≠ 0 && arm64_user_vm_validate_tables vm && arm64_user_vm_validate_residents vm

/-- `arm64_user_vm_ensure_l3`: the second-level table. -/
def ensure_l2 (m : Machine) (virtual_address : Nat) : Machine × Except Int Nat :=
  match arm64_user_vm_find_l2 m.vm virtual_address with
  | some l2 => (m,.ok l2.table)
  | none =>
    match arm64_user_vm_reserve_l2_tables m (m.vm.l2_tables.length + 1) with
    | (m,false) => (m,.error (-1))
    | (m,true) =>
      match allocate_page m.pool with
      | (pool,none) => ({ m with pool := pool },.error (-1))
      | (pool,some table) =>
        -- `arm64_vm_alloc_pages` clears the pages
        let memory := clear_table m.memory table
        match arm64_mmu_install_user_l2 memory m.vm.l1 table virtual_address with
        | .error _ => ({ m with pool := free_page pool table, memory := memory },.error (-2))
        | .ok memory =>
          ({ m with
            pool := pool
            memory := memory
            vm := { m.vm with l2_tables := m.vm.l2_tables ++ [⟨l1_index virtual_address,table⟩] } },.ok table)

/-- `arm64_user_vm_ensure_l3`: the third-level table. -/
def install_l3 (m : Machine) (l2 virtual_address : Nat) : Machine × Except Int Nat :=
  match arm64_user_vm_reserve_l3_tables m (m.vm.l3_tables.length + 1) with
  | (m,false) => (m,.error (-3))
  | (m,true) =>
    match allocate_page m.pool with
    | (pool,none) => ({ m with pool := pool },.error (-3))
    | (pool,some table) =>
      let memory := clear_table m.memory table
      match arm64_mmu_install_user_l3 memory l2 table virtual_address with
      | .error _ => ({ m with pool := free_page pool table, memory := memory },.error (-4))
      | .ok memory =>
        ({ m with
          pool := pool
          memory := memory
          vm := { m.vm with
            l3_tables := m.vm.l3_tables ++ [⟨l1_index virtual_address,l2_index virtual_address,table⟩] } },.ok table)

def arm64_user_vm_ensure_l3 (m : Machine) (virtual_address : Nat) : Machine × Except Int Nat :=
  match arm64_user_vm_find_l3 m.vm virtual_address with
  | some l3 => (m,.ok l3.table)
  | none =>
    match ensure_l2 m virtual_address with
    | (m,.error code) => (m,.error code)
    | (m,.ok l2) => install_l3 m l2 virtual_address

/-- The way out of a mapping that failed. -/
def give_up (m : Machine) (virtual_address : Nat) (code : Int) : Machine × Except Int Nat :=
  ((arm64_user_vm_reclaim_empty_tables m virtual_address).1,.error code)
def record_mapping (m : Machine) (memory : Memory) (mappings : List Mapping) : Machine :=
  { m with memory := memory, vm := { m.vm with mappings := mappings } }

/-- `arm64_user_vm_map_new_page`; the result is the page. -/
def arm64_user_vm_map_new_page (m : Machine) (virtual_address : Nat) (flags : Flags) : Machine × Except Int Nat :=
  if !arm64_user_vm_validate_identity m.vm || virtual_address % PAGE_SIZE ≠ 0 || 2 ^ 39 ≤ virtual_address ||
      !arm64_user_vm_flags_valid flags || flags.lazy then (m,.error (-1))
  else if (arm64_user_vm_find_mapping m.vm virtual_address).isSome then (m,.error (-2))
  else
    match arm64_user_vm_reserve_mappings m (m.vm.mappings.length + 1) with
    | (m,false) => (m,.error (-3))
    | (m,true) =>
      match arm64_user_vm_ensure_l3 m virtual_address with
      | (m,.error _) => give_up m virtual_address (-4)
      | (m,.ok l3) =>
        match allocate_page m.pool with
        | (pool,none) => give_up { m with pool := pool } virtual_address (-5)
        | (pool,some page) =>
          match arm64_mmu_map_user_l3_page m.memory l3 virtual_address page flags (arm64_asid_hw m.vm.asid) with
          | .error _ => give_up { m with pool := free_page pool page } virtual_address (-6)
          | .ok memory =>
            (record_mapping { m with pool := pool } memory (m.vm.mappings ++ [⟨virtual_address,page,flags⟩]),.ok page)

/-- `arm64_user_vm_map_page`; the result is the address given. -/
def arm64_user_vm_map_page (m : Machine) (virtual_address physical_address : Nat) (flags : Flags) :
    Machine × Except Int Nat :=
  let flags := { flags with lazy := false }
  if !arm64_user_vm_validate_identity m.vm || virtual_address % PAGE_SIZE ≠ 0 || physical_address % PAGE_SIZE ≠ 0 ||
      !arm64_user_vm_flags_valid flags then (m,.error (-1))
  else
    -- a mapping without a physical page does not pass `arm64_user_vm_validate_residents`
    let found := arm64_user_vm_find_mapping m.vm virtual_address
    if found.any (fun mapping => mapping.physical_address ≠ 0) then (m,.error (-2))
    else
      match if found.isNone then arm64_user_vm_reserve_mappings m (m.vm.mappings.length + 1) else (m,true) with
      | (m,false) => (m,.error (-3))
      | (m,true) =>
        match arm64_user_vm_ensure_l3 m virtual_address with
        | (m,.error _) => give_up m virtual_address (-4)
        | (m,.ok l3) =>
          match arm64_mmu_map_user_l3_page m.memory l3 virtual_address physical_address flags
              (arm64_asid_hw m.vm.asid) with
          | .error _ => give_up m virtual_address (-5)
          | .ok memory =>
            let mapping := ⟨virtual_address,physical_address,flags⟩
            (record_mapping m memory
              (if found.isNone then m.vm.mappings ++ [mapping]
                else Keyed.change Mapping.virtual_address m.vm.mappings virtual_address fun _ => mapping),
              .ok physical_address)

def arm64_user_vm_protect_page (m : Machine) (virtual_address : Nat) (flags : Flags) : Machine × Except Int Nat :=
  let flags := { flags with lazy := false }
  if !arm64_user_vm_validate_identity m.vm || !arm64_user_vm_flags_valid flags then (m,.error (-1))
  else
    let virtual_address := Vm.page_of virtual_address
    match arm64_user_vm_find_mapping m.vm virtual_address, arm64_user_vm_find_l3 m.vm virtual_address with
    | some mapping, some l3 =>
      if mapping.physical_address = 0 then (m,.error (-3))
      else
        match arm64_mmu_unmap_user_l3_page m.memory l3.table virtual_address (arm64_asid_hw m.vm.asid) with
        | .error _ => (m,.error (-3))
        | .ok (memory,unmapped) =>
          if unmapped ≠ mapping.physical_address then ({ m with memory := memory },.error (-3))
          else
            match arm64_mmu_map_user_l3_page memory l3.table virtual_address mapping.physical_address flags
                (arm64_asid_hw m.vm.asid) with
            | .error _ => ({ m with memory := memory },.error (-4))
            | .ok memory =>
              (record_mapping m memory
                (Keyed.change Mapping.virtual_address m.vm.mappings virtual_address fun mapping =>
                  { mapping with flags := flags }),.ok mapping.physical_address)
    | _, _ => (m,.error (-2))

/-- The result of the check that ends `arm64_user_vm_unmap_page`. -/
def checked (m : Machine) (physical_address : Nat) : Machine × Except Int Nat :=
  (m,if arm64_user_vm_validate_identity m.vm then .ok physical_address else .error (-1))

/-- `arm64_user_vm_unmap_page`; the result is the page. -/
def arm64_user_vm_unmap_page (m : Machine) (virtual_address : Nat) : Machine × Except Int Nat :=
  if !arm64_user_vm_validate_identity m.vm || virtual_address % PAGE_SIZE ≠ 0 then (m,.error (-1))
  else
    match arm64_user_vm_find_mapping m.vm virtual_address with
    | none => (m,.error (-2))
    | some mapping =>
      let mappings := Keyed.swap_out Mapping.virtual_address m.vm.mappings virtual_address
      if mapping.physical_address = 0 then checked (record_mapping m m.memory mappings) 0
      else
        match arm64_user_vm_find_l3 m.vm virtual_address with
        | none => (m,.error (-3))
        | some l3 =>
          match arm64_mmu_unmap_user_l3_page m.memory l3.table virtual_address (arm64_asid_hw m.vm.asid) with
          | .error _ => (m,.error (-4))
          | .ok (memory,physical_address) =>
            if physical_address ≠ mapping.physical_address then ({ m with memory := memory },.error (-5))
            else
              match arm64_user_vm_reclaim_empty_tables (record_mapping m memory mappings) virtual_address with
              | (m,0) => checked m physical_address
              | (m,_) => (m,.error (-7))

/-- `arm64_user_vm_init` with the allocated ASID. -/
def arm64_user_vm_init (platform : Platform) (pool : Pool) (memory : Memory) (asid : Nat) : Except Int Machine :=
  if asid = 0 then .error (-2)
  else
    match allocate_page pool with
    | (_,none) => .error (-3)
    | (pool,some l1) =>
      match arm64_mmu_prepare_user_ttbr0 platform memory l1 with
      | .error _ => .error (-4)
      | .ok memory => .ok ⟨pool,memory,⟨l1,asid,[],0,[],0,[],0⟩⟩

end ArmOS.PageTables

