import ArmOS.Frames
import ArmOS.Keyed
import ArmOS.Vma

/-!
An address space: its areas, its break and its mapped pages, with page operations,
fault handlers and user copies. A translation table is the list of its mappings; the
memory its tables need is one drawn outcome per page.
-/
namespace ArmOS.Vm
open Words Vma Frames
open Physical (PAGE_SIZE)

/-- `arm64_user_vm_mapping_t`. -/
structure Mapping where
  (virtual_address physical_address : Nat)
  flags : Flags
deriving DecidableEq, Repr

/-- The fields of `vm_space_t` and the mappings of its backend. -/
structure Space where
  vma_list : List Area
  (heap_start heap_end brk : Nat)
  mappings : List Mapping
deriving DecidableEq, Repr

/-- The space that `create_vm_space` returns after `vm_initialize_user_layout`. -/
def Space.initial : Space := ⟨[],USER_HEAP_START,USER_HEAP_END,USER_HEAP_START,[]⟩

/-- `address & PAGE_MASK`. -/
def page_of (address : Nat) : Nat := align_down address PAGE_SIZE
def lookup (s : Space) (address : Nat) : Option Mapping :=
  Keyed.find Mapping.virtual_address s.mappings (page_of address)

/-- `get_physical_address`, masked to the page; 0 is unmapped. -/
def get_physical_page (s : Space) (address : Nat) : Nat :=
  match lookup s address with
  | none => 0
  | some m => m.physical_address
def arm64_user_vm_flags_valid (flags : Flags) : Bool :=
  flags.read && !flags.kernel && !(flags.write && flags.exec)

/-- `arm64_user_vm_map_page` where there is room. -/
def arm64_user_vm_map_page (s : Space) (address physical : Nat) (flags : Flags) : Option Space :=
  let flags := { flags with lazy := false }
  if !arm64_user_vm_flags_valid flags then none
  else
    match lookup s address with
    | some _ => none
    | none => some { s with mappings := s.mappings ++ [⟨page_of address,physical,flags⟩] }

/-- `map_user_page`; `none` is a negative result. -/
def map_user_page (p : Pool) (s : Space) (address physical : Nat) (flags : Flags) : Pool × Option Space :=
  (drawn p,if kmalloc p then arm64_user_vm_map_page s address physical flags else none)
def map_user_page_readonly (p : Pool) (s : Space) (address physical : Nat) (flags : Flags) : Pool × Option Space :=
  map_user_page p s address physical { flags with read := true, write := false }

/-- `unmap_user_page`; `none` is a negative result. -/
def unmap_user_page (s : Space) (address : Nat) : Option Space :=
  match lookup s address with
  | none => none
  | some _ => some { s with mappings := Keyed.erase Mapping.virtual_address s.mappings (page_of address) }

/-- `remap_user_page`, which cannot run out of memory. -/
def remap_user_page (s : Space) (address physical : Nat) (flags : Flags) : Option Space :=
  arm64_user_vm_map_page ((unmap_user_page s address).getD s) address physical flags

/-- `arm64_user_vm_protect_page` with computed flags. -/
def protect_page (s : Space) (address : Nat) (set : Flags → Flags) : Option Space :=
  match lookup s address with
  | none => none
  | some m =>
    let flags := { set m.flags with lazy := false }
    if !arm64_user_vm_flags_valid flags then none
    else
      some { s with
        mappings := Keyed.change Mapping.virtual_address s.mappings (page_of address) (fun m => { m with flags := flags }) }

def set_user_page_readonly (s : Space) (address : Nat) : Option Space :=
  protect_page s address (fun flags => { flags with read := true, write := false })
def set_user_page_writable (s : Space) (address : Nat) : Option Space :=
  protect_page s address (fun flags => { flags with read := true, write := true })
def page_count (start stop : Nat) : Nat := (stop - start + (PAGE_SIZE - 1)) / PAGE_SIZE

/-- A resident page, unmapped; its frame comes with the space. -/
def unmap_resident (s : Space) (page : Nat) : Option (Space × Nat) :=
  if get_physical_page s page = 0 then none
  else (unmap_user_page s page).map (fun t => (t,get_physical_page s page))

/-- The loop that unmaps pages; `external` ones are not freed. -/
def unmap_pages (external : Bool) : Pool → Space → Nat → Nat → Pool × Space
  | p, s, _, 0 => (p,s)
  | p, s, page, count + 1 =>
    match unmap_resident s page with
    | none => unmap_pages external p s (page + PAGE_SIZE) count
    | some (s,physical) =>
      unmap_pages external (if external then p else free_page p physical) s (page + PAGE_SIZE) count

/-- The loop that maps new pages, and whether it got through. -/
def map_new_pages (flags : Flags) (load : Nat → Buddy.Content) : Pool → Space → Nat → Nat → Pool × Space × Nat × Bool
  | p, s, page, 0 => (p,s,page,true)
  | p, s, page, count + 1 =>
    match allocate_page p with
    | (p,none) => (p,s,page,false)
    | (p,some physical) =>
      let p := { p with content := Function.update p.content physical (load page) }
      match map_user_page p s page physical flags with
      | (p,none) => (free_page p physical,s,page,false)
      | (p,some s) => map_new_pages flags load p s (page + PAGE_SIZE) count

/-- Pages stay as `allocate_page` cleared them. -/
def cleared : Nat → Buddy.Content := fun _ _ => 0

/-- The page that a fault on a missing page gets. -/
def map_missing_page (p : Pool) (s : Space) (address : Nat) (flags : Flags) : Pool × Option Space :=
  match allocate_page p with
  | (p,none) => (p,none)
  | (p,some page) =>
    match map_user_page p s (page_of address) page flags with
    | (p,none) => (free_page p page,none)
    | (p,some s) => (p,some s)

/-- `handle_lazy_anon_fault`; `none` is a negative result. -/
def handle_lazy_anon_fault (p : Pool) (s : Space) (address : Nat) (write : Bool) : Pool × Option Space :=
  match find_vma s.vma_list address with
  | none => (p,none)
  | some vma =>
    if !vma.flags.lazy then (p,none)
    else if (write && !vma.flags.write) || (!write && !vma.flags.read) then (p,none)
    else if get_physical_page s address ≠ 0 then (p,some s)
    else map_missing_page p s address vma.flags

/-- `handle_user_stack_fault`; `none` is a negative result. -/
def handle_user_stack_fault (p : Pool) (s : Space) (address : Nat) : Pool × Option Space :=
  if address < USER_STACK_BOTTOM + PAGE_SIZE ∨ USER_STACK_TOP ≤ address then (p,none)
  else
    match find_vma s.vma_list address with
    | none => (p,none)
    | some vma =>
      if !vma.flags.write then (p,none)
      else if get_physical_page s address ≠ 0 then (p,some s)
      else map_missing_page p s address vma.flags

/-- `handle_cow_fault`; a failed mapping leaves the page unmapped. -/
def handle_cow_fault (p : Pool) (s : Space) (address : Nat) : Pool × Space × Bool :=
  match find_vma s.vma_list address with
  | none => (p,s,false)
  | some vma =>
    if !vma.flags.write || vma.flags.shared then (p,s,false)
    else
      let old_page := get_physical_page s address
      if old_page = 0 then (p,s,false)
      else if page_ref_count p old_page = 0 then (p,s,false)
      else if page_ref_count p old_page = 1 then
        match set_user_page_writable s address with
        | none => (p,s,false)
        | some s => (p,s,true)
      else
        match allocate_page p with
        | (p,none) => (p,s,false)
        | (p,some new_page) =>
          let p := { p with content := Function.update p.content new_page (p.content old_page) }
          match remap_user_page s address new_page vma.flags with
          | none => (free_page p new_page,(unmap_user_page s address).getD s,false)
          | some s => (free_page p old_page,s,true)

/-- `dispatch_user_page_fault` on a translation fault. -/
def translation_fault (p : Pool) (s : Space) (address : Nat) (write : Bool) : Pool × Option Space :=
  match handle_user_stack_fault p s address with
  | (p,some s) => (p,some s)
  | (p,none) => handle_lazy_anon_fault p s address write

/-- A store to a mapped page; a read-only one goes through `handle_cow_fault`. -/
def store_mapped (p : Pool) (s : Space) (address byte : Nat) : Pool × Space × Bool :=
  match lookup s address with
  | none => (p,s,false)
  | some m =>
    if m.flags.write then (Frames.store p m.physical_address (address % PAGE_SIZE) byte,s,true)
    else
      match handle_cow_fault p s address with
      | (p,s,false) => (p,s,false)
      | (p,s,true) => (Frames.store p (get_physical_page s address) (address % PAGE_SIZE) byte,s,true)

/-- A store of user code; `false` is an unresolved fault. -/
def user_write (p : Pool) (s : Space) (address byte : Nat) : Pool × Space × Bool :=
  match lookup s address with
  | some _ => store_mapped p s address byte
  | none =>
    match translation_fault p s address true with
    | (p,none) => (p,s,false)
    | (p,some s) => store_mapped p s address byte

/-- `prepare_user_page` brings a missing page in. -/
def present (p : Pool) (s : Space) (page : Nat) (write : Bool) : Pool × Space :=
  if get_physical_page s page ≠ 0 then (p,s)
  else
    match handle_lazy_anon_fault p s page write with
    | (p,some s) => (p,s)
    | (p,none) =>
      match handle_user_stack_fault p s page with
      | (p,some s) => (p,s)
      | (p,none) => (p,s)

/-- `prepare_user_page`; the flag is whether it returned 0. -/
def prepare_user_page (p : Pool) (s : Space) (page : Nat) (write : Bool) : Pool × Space × Bool :=
  match find_vma s.vma_list page with
  | none => (p,s,false)
  | some vma =>
    let r := present p s page write
    let physical := get_physical_page r.2 page
    if physical = 0 then (r.1,r.2,false)
    else if write && !vma.flags.shared && 1 < page_ref_count r.1 physical then handle_cow_fault r.1 r.2 page
    else (r.1,r.2,true)

/-- One chunk of `copy_user_pages`, stored. -/
def store_bytes (p : Pool) (physical : Nat) : Nat → List Nat → Pool
  | _, [] => p
  | offset, byte :: rest => store_bytes (Frames.store p physical offset byte) physical (offset + 1) rest

/-- The loop of `copy_user_pages`, with the bytes copied. -/
def copy_out : Nat → Pool → Space → Nat → List Nat → Pool × Space × Nat
  | 0, p, s, _, _ => (p,s,0)
  | turns + 1, p, s, address, bytes =>
    if bytes = [] then (p,s,0)
    else
      let offset := address % PAGE_SIZE
      let chunk := min (PAGE_SIZE - offset) bytes.length
      match prepare_user_page p s (page_of address) true with
      | (p,s,false) => (p,s,0)
      | (p,s,true) =>
        let physical := get_physical_page s (page_of address)
        if physical = 0 then (p,s,0)
        else
          let r := copy_out turns (store_bytes p physical offset (bytes.take chunk)) s (address + chunk) (bytes.drop chunk)
          (r.1,r.2.1,chunk + r.2.2)

/-- `copy_to_user`, with the number copied. -/
def copy_to_user (image : Image) (p : Pool) (s : Space) (address : Nat) (bytes : List Nat) : Pool × Space × Nat :=
  if bytes = [] then (p,s,0)
  else if vm_validate_user_range image s.vma_list address bytes.length { Flags.none with write := true } ≠ some true then
    (p,s,0)
  else copy_out bytes.length p s address bytes

/-! ### What the page operations leave alone -/

/-- The spaces differ at most in their mappings. -/
def SameAreas (s t : Space) : Prop := t = { s with mappings := t.mappings }
theorem SameAreas.refl (s : Space) : SameAreas s s := rfl

variable {s t : Space} {address physical page : Nat} {flags : Flags} {p q : Pool}

theorem SameAreas.trans {r : Space} (first : SameAreas s t) (second : SameAreas t r) : SameAreas s r := by
  unfold SameAreas at *
  rw [second,first]
theorem SameAreas.vma_list (same : SameAreas s t) : t.vma_list = s.vma_list := by rw [same]
theorem SameAreas.heap_start (same : SameAreas s t) : t.heap_start = s.heap_start := by rw [same]
theorem SameAreas.heap_end (same : SameAreas s t) : t.heap_end = s.heap_end := by rw [same]
theorem SameAreas.brk (same : SameAreas s t) : t.brk = s.brk := by rw [same]

theorem map_page_some (mapped : arm64_user_vm_map_page s address physical flags = some t) :
    arm64_user_vm_flags_valid { flags with lazy := false } = true ∧ lookup s address = none ∧
      t = { s with mappings := s.mappings ++ [⟨page_of address,physical,{ flags with lazy := false }⟩] } := by
  unfold arm64_user_vm_map_page at mapped
  dsimp only at mapped
  split at mapped
  · cases mapped
  · grind

theorem unmap_some (unmapped : unmap_user_page s address = some t) :
    ∃ m, lookup s address = some m ∧
      t = { s with mappings := Keyed.erase Mapping.virtual_address s.mappings (page_of address) } := by
  unfold unmap_user_page at unmapped
  cases found : lookup s address with
  | none => rw [found] at unmapped; cases unmapped
  | some m =>
    rw [found] at unmapped
    exact ⟨m,rfl,(Option.some.inj unmapped).symm⟩

theorem unmap_resident_some (unmapped : unmap_resident s page = some (t,physical)) :
    ∃ m, lookup s page = some m ∧ physical = m.physical_address ∧ physical ≠ 0 ∧
      t = { s with mappings := Keyed.erase Mapping.virtual_address s.mappings (page_of page) } := by
  unfold unmap_resident at unmapped
  split at unmapped
  · cases unmapped
  rename_i resident
  obtain ⟨r,removed,same⟩ := Option.map_eq_some_iff.mp unmapped
  obtain ⟨m,found,rfl⟩ := unmap_some removed
  cases same
  simp only [get_physical_page,found] at resident ⊢
  exact ⟨m,rfl,rfl,resident,trivial⟩

variable {set : Flags → Flags}

theorem protect_some (changed : protect_page s address set = some t) :
    ∃ m, lookup s address = some m ∧ arm64_user_vm_flags_valid { set m.flags with lazy := false } = true ∧
      t = { s with
        mappings := Keyed.change Mapping.virtual_address s.mappings (page_of address)
          (fun m' => { m' with flags := { set m.flags with lazy := false } }) } := by
  unfold protect_page at changed
  cases found : lookup s address with
  | none => rw [found] at changed; cases changed
  | some m => grind

theorem map_user_page_areas (mapped : map_user_page p s address physical flags = (q,some t)) : SameAreas s t := by
  have done : arm64_user_vm_map_page s address physical flags = some t := by grind [map_user_page]
  obtain ⟨_,_,rfl⟩ := map_page_some done
  rfl
theorem protect_areas (changed : protect_page s address set = some t) : SameAreas s t := by
  obtain ⟨m,_,_,rfl⟩ := protect_some changed
  rfl

theorem unmap_pages_areas (external : Bool) (p : Pool) (s : Space) (page count : Nat) :
    SameAreas s (unmap_pages external p s page count).2 := by
  induction count generalizing p s page with
  | zero => exact .refl s
  | succ count ih =>
    unfold unmap_pages
    split
    · exact ih _ _ _
    rename_i t physical unmapped
    obtain ⟨m,_,_,_,rfl⟩ := unmap_resident_some unmapped
    refine SameAreas.trans ?_ (ih _ _ _)
    rfl

theorem map_new_pages_areas (flags : Flags) (load : Nat → Buddy.Content) (p : Pool) (s : Space) (page count : Nat) :
    SameAreas s (map_new_pages flags load p s page count).2.1 := by
  induction count generalizing p s page with
  | zero => exact .refl s
  | succ count ih =>
    unfold map_new_pages
    split
    · exact .refl s
    dsimp only
    split
    · exact .refl s
    rename_i mapped
    exact (map_user_page_areas mapped).trans (ih _ _ _)

theorem unmap_pages_same {external : Bool} {count : Nat}
    (result : unmap_pages external p s page count = (q,t)) : SameAreas s t := by
  have same := unmap_pages_areas external p s page count
  rwa [result] at same
theorem map_new_pages_same {load : Nat → Buddy.Content} {count stopped : Nat} {done : Bool}
    (result : map_new_pages flags load p s page count = (q,t,stopped,done)) : SameAreas s t := by
  have same := map_new_pages_areas flags load p s page count
  rwa [result] at same

theorem map_missing_page_areas (mapped : map_missing_page p s address flags = (q,some t)) : SameAreas s t := by
  unfold map_missing_page at mapped
  split at mapped
  · cases mapped
  split at mapped
  · cases mapped
  rename_i done
  cases mapped
  exact map_user_page_areas done

variable {write : Bool}

theorem lazy_fault_areas (resolved : handle_lazy_anon_fault p s address write = (q,some t)) : SameAreas s t := by
  unfold handle_lazy_anon_fault at resolved
  split at resolved
  · cases resolved
  split at resolved
  · cases resolved
  split at resolved
  · cases resolved
  split at resolved
  · cases resolved
    exact .refl s
  · exact map_missing_page_areas resolved

theorem stack_fault_areas (resolved : handle_user_stack_fault p s address = (q,some t)) : SameAreas s t := by
  unfold handle_user_stack_fault at resolved
  split at resolved
  · cases resolved
  split at resolved
  · cases resolved
  split at resolved
  · cases resolved
  split at resolved
  · cases resolved
    exact .refl s
  · exact map_missing_page_areas resolved

theorem translation_fault_areas (resolved : translation_fault p s address write = (q,some t)) : SameAreas s t := by
  unfold translation_fault at resolved
  split at resolved
  · rename_i first
    cases resolved
    exact stack_fault_areas first
  · exact lazy_fault_areas resolved

theorem unmap_getD_areas (s : Space) (page : Nat) : SameAreas s ((unmap_user_page s page).getD s) := by
  cases unmapped : unmap_user_page s page with
  | none => exact .refl s
  | some t =>
    obtain ⟨m,_,rfl⟩ := unmap_some unmapped
    rfl

theorem remap_areas (mapped : remap_user_page s address physical flags = some t) : SameAreas s t := by
  obtain ⟨_,_,rfl⟩ := map_page_some mapped
  exact (unmap_getD_areas s address).trans rfl

theorem cow_fault_areas (p : Pool) (s : Space) (address : Nat) : SameAreas s (handle_cow_fault p s address).2.1 := by
  unfold handle_cow_fault
  split
  · exact .refl s
  split
  · exact .refl s
  dsimp only
  split
  · exact .refl s
  split
  · exact .refl s
  split
  · split
    · exact .refl s
    rename_i changed
    exact protect_areas changed
  split
  · exact .refl s
  split
  · exact unmap_getD_areas s address
  rename_i mapped
  exact remap_areas mapped

theorem store_mapped_areas (p : Pool) (s : Space) (address byte : Nat) :
    SameAreas s (store_mapped p s address byte).2.1 := by
  unfold store_mapped
  split
  · exact .refl s
  split
  · exact .refl s
  have copied := cow_fault_areas p s address
  split
  · rename_i result
    rwa [result] at copied
  rename_i result
  rwa [result] at copied

theorem user_write_areas (p : Pool) (s : Space) (address byte : Nat) :
    SameAreas s (user_write p s address byte).2.1 := by
  unfold user_write
  split
  · exact store_mapped_areas ..
  split
  · exact .refl s
  rename_i resolved
  exact (translation_fault_areas resolved).trans (store_mapped_areas ..)

theorem prepare_user_page_areas (p : Pool) (s : Space) (page : Nat) (write : Bool) :
    SameAreas s (prepare_user_page p s page write).2.1 := by
  have faulted : SameAreas s (present p s page write).2 := by
    unfold present
    split
    · exact .refl s
    split
    · rename_i resolved
      exact lazy_fault_areas resolved
    split
    · rename_i resolved
      exact stack_fault_areas resolved
    · exact .refl s
  unfold prepare_user_page
  split
  · exact .refl s
  dsimp only
  split
  · exact faulted
  split
  · exact faulted.trans (cow_fault_areas ..)
  · exact faulted

theorem copy_out_areas (turns : Nat) (p : Pool) (s : Space) (address : Nat) (bytes : List Nat) :
    SameAreas s (copy_out turns p s address bytes).2.1 := by
  induction turns generalizing p s address bytes with
  | zero => exact .refl s
  | succ turns ih =>
    unfold copy_out
    split
    · exact .refl s
    dsimp only
    have prepared := prepare_user_page_areas p s (page_of address) true
    split
    · rename_i result
      rwa [result] at prepared
    rename_i result
    rw [result] at prepared
    split
    · exact prepared
    · exact prepared.trans (ih _ _ _ _)

theorem copy_to_user_areas (image : Image) (p : Pool) (s : Space) (address : Nat) (bytes : List Nat) :
    SameAreas s (copy_to_user image p s address bytes).2.1 := by
  unfold copy_to_user
  split
  · exact .refl s
  split
  · exact .refl s
  · exact copy_out_areas ..

end ArmOS.Vm

