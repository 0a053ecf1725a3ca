import ArmOS.AreaRuns

/-!
`sys_mprotect`. The area loses the attributes that say whose pages it has, and pages
become writable whoever else maps their frames. The call is right exactly where
there are none of these attributes and no other space maps such a frame.
-/
namespace ArmOS.Protect
open Words Vma Vm Syscalls Processes Moves Runs AreaRuns Nat
open Physical (PAGE_SIZE)

/-- The areas differ at most in what access they allow. -/
def SameButAccess (a b : Area) : Prop :=
  b = { a with flags := { a.flags with read := b.flags.read, write := b.flags.write, exec := b.flags.exec } }

/-- Another process maps the frame. -/
def MappedElsewhere (sys : System) (pid physical : Nat) : Prop :=
  ∃ other ∈ sys.processes, other.pid ≠ pid ∧ ∃ m ∈ other.vm.mappings, m.physical_address = physical

/-- Areas keep their attributes, and a private page made writable is on a frame no
    other process maps. -/
structure Protected (sys : System) (pid : Nat) (s t : Space) : Prop where
  attributes : List.Forall₂ SameButAccess s.vma_list t.vma_list
  copied : ∀ address m, lookup t address = some m → m.flags.write = true →
    (∃ vma ∈ s.vma_list, vma.Has address ∧ vma.flags.shared = false) → MappedElsewhere sys pid m.physical_address →
    ∃ old, lookup s address = some old ∧ old.flags.write = true ∧ old.physical_address = m.physical_address

/-- The area is plain memory, and pages made writable are its own. -/
structure Own (sys : System) (pid : Nat) (s : Space) (vma : Area) (prot : Nat) : Prop where
  plain : vma.flags.shared = false ∧ vma.flags.external = false ∧ vma.flags.dontfork = false ∧ vma.flags.kernel = false
  lazy : vma.flags.lazy = true → has prot ARMOS_PROT_EXEC = false
  alone : has prot ARMOS_PROT_WRITE = true → ∀ address m, vma.Has address → lookup s address = some m →
    m.physical_address ≠ 0 → m.flags.write = false → ¬ MappedElsewhere sys pid m.physical_address

/-! ### The pages -/

/-- The page after the loop of `sys_mprotect` went over it. -/
def protected_page (writable : Bool) (m : Mapping) : Mapping :=
  if m.physical_address = 0 then m
  else { m with flags := { m.flags with read := true, write := writable, lazy := false } }

variable {s t : Space} {page address : Nat}

theorem protect_lookup {set : Flags → Flags} (changed : protect_page s page set = some t) :
    lookup t address = if page_of address = page_of page
      then (lookup s address).map (fun m => { m with flags := { set m.flags with lazy := false } })
      else lookup s address := by
  obtain ⟨m,found,_,rfl⟩ := protect_some changed
  unfold lookup at *
  dsimp only
  rw [Keyed.find_change (by intro; rfl)]
  by_cases same : page_of address = page_of page
  · rw [if_pos same,if_pos same,same,found]
    rfl
  · rw [if_neg same,if_neg same]

variable {writable : Bool}

theorem protect_step_lookup
    (changed : (if writable then set_user_page_writable s page else set_user_page_readonly s page) = some t)
    (resident : get_physical_page s page ≠ 0) :
    lookup t address = if page_of address = page_of page then (lookup s address).map (protected_page writable)
      else lookup s address := by
  have here : lookup t address = if page_of address = page_of page
      then (lookup s address).map (fun m => { m with flags :=
          { m.flags with read := true, write := writable, lazy := false } })
      else lookup s address := by
    cases writable with
    | true => exact protect_lookup (by simpa [set_user_page_writable] using changed)
    | false => exact protect_lookup (by simpa [set_user_page_readonly] using changed)
  rw [here]
  by_cases same : page_of address = page_of page
  · rw [if_pos same,if_pos same]
    cases found : lookup s address with
    | none => rfl
    | some m =>
      have frame : m.physical_address ≠ 0 := by
        unfold get_physical_page lookup at resident
        unfold lookup at found
        rw [← same,found] at resident
        exact resident
      simp [protected_page,frame]
  · rw [if_neg same,if_neg same]

/-- `sys_mprotect` sets the access of resident pages in range only. -/
theorem protect_pages_lookup {count : Nat} (aligned : PAGE_SIZE ∣ page)
    (result : protect_pages writable s page count = (t,true)) (address : Nat) :
    lookup t address = if page ≤ page_of address ∧ page_of address < page + count * PAGE_SIZE
      then (lookup s address).map (protected_page writable) else lookup s address := by
  induction count generalizing s page with
  | zero =>
    cases result
    rw [if_neg (by omega)]
  | succ count ih =>
    have size : (count + 1) * PAGE_SIZE = PAGE_SIZE + count * PAGE_SIZE := by ring
    have positive : 0 < PAGE_SIZE := by decide
    have next : PAGE_SIZE ∣ page + PAGE_SIZE := Dvd.dvd.add aligned dvd_rfl
    have own : page_of page = page := align_down_of_dvd aligned
    -- pages are a page apart, so an address is of this page or of one outside its range
    have apart : page_of address < page ∨ page_of address = page ∨ page + PAGE_SIZE ≤ page_of address := by
      obtain ⟨n,first⟩ := aligned
      obtain ⟨j,second⟩ := align_down_dvd address PAGE_SIZE
      change page_of address = PAGE_SIZE * j at second
      rw [first,second]
      rcases Nat.lt_trichotomy j n with less | same | more
      · exact .inl (Nat.mul_lt_mul_of_pos_left less positive)
      · exact .inr (.inl (by rw [same]))
      · exact .inr (.inr (by rw [← Nat.mul_succ]; exact Nat.mul_le_mul_left _ more))
    unfold protect_pages at result
    split at result
    · rename_i absent
      rw [ih next result]
      rcases apart with before | here | after
      · rw [if_neg (by omega),if_neg (by omega)]
      · rw [if_neg (by omega),if_pos (by omega)]
        cases found : lookup s address with
        | none => rfl
        | some m =>
          have frame : m.physical_address = 0 := by
            unfold get_physical_page lookup at absent
            unfold lookup at found
            rw [own,← here,found] at absent
            exact absent
          simp [protected_page,frame]
      by_cases below : page_of address < page + (count + 1) * PAGE_SIZE
      · rw [if_pos (by omega),if_pos (by omega)]
      · rw [if_neg (by omega),if_neg (by omega)]
    rename_i resident
    split at result
    · cases result
    rename_i r changed
    rw [ih next result,protect_step_lookup changed resident,own]
    rcases apart with before | here | after
    · rw [if_neg (by omega),if_neg (by omega),if_neg (by omega)]
    · rw [if_neg (by omega),if_pos here,if_pos (by omega)]
    rw [if_neg (by omega : ¬ page_of address = page)]
    by_cases below : page_of address < page + (count + 1) * PAGE_SIZE
    · rw [if_pos (by omega),if_pos (by omega)]
    · rw [if_neg (by omega),if_neg (by omega)]

/-! ### The area -/

theorem SameButAccess.refl (a : Area) : SameButAccess a a := rfl

theorem set_vma_flags_attributes {flags : Flags} {vmas : List Area} {vma : Area}
    (found : find_vma vmas address = some vma) :
    List.Forall₂ SameButAccess vmas (set_vma_flags flags address vmas) ↔
      SameButAccess vma { vma with flags := flags } := by
  induction vmas with
  | nil => cases found
  | cons first rest ih =>
    unfold find_vma at found ih
    by_cases here : first.Has address
    · rw [List.find?_cons_of_pos (by simpa using here)] at found
      cases found
      rw [set_vma_flags,if_pos here]
      constructor
      · intro both
        cases both with
        | cons one _ => exact one
      intro one
      exact .cons one (List.forall₂_same.mpr (fun a _ => .refl a))
    rw [List.find?_cons_of_neg (by simpa using here)] at found
    rw [set_vma_flags,if_neg here,← ih found]
    constructor
    · intro both
      cases both with
      | cons _ later => exact later
    intro later
    exact .cons (.refl first) later

/-- The flags that `sys_mprotect` gives to an area. -/
def mprotect_flags (vma : Area) (prot : Nat) : Flags :=
  { prot_flags prot with lazy := vma.flags.lazy && !(prot_flags prot).exec }

theorem mprotect_flags_attributes (vma : Area) (prot : Nat) :
    SameButAccess vma { vma with flags := mprotect_flags vma prot } ↔
      (vma.flags.shared = false ∧ vma.flags.external = false ∧ vma.flags.dontfork = false ∧ vma.flags.kernel = false) ∧
        (vma.flags.lazy = true → has prot ARMOS_PROT_EXEC = false) := by
  unfold SameButAccess mprotect_flags prot_flags
  simp only [Area.mk.injEq,Flags.mk.injEq,true_and,and_true]
  grind

theorem sys_mprotect_done {addr length prot : Nat} (done : sys_mprotect s addr length prot = (t,none)) :
    ∃ vma r, find_vma s.vma_list addr = some vma ∧ addr = vma.start ∧ PAGE_SIZE ∣ addr ∧ PAGE_SIZE ∣ vma.stop ∧
      addr < vma.stop ∧
      protect_pages (has prot ARMOS_PROT_WRITE) s addr (page_count addr vma.stop) = (r,true) ∧
      t = { r with vma_list := set_vma_flags (mprotect_flags vma prot) addr r.vma_list } := by
  unfold sys_mprotect at done
  dsimp only at done
  split at done
  · cases done
  rename_i arguments
  split at done
  · cases done
  split at done
  · cases done
  rename_i range
  split at done
  · cases done
  rename_i vma found
  split at done
  · cases done
  rename_i exact_area
  split at done
  · cases done
  rename_i r result
  have aligned : PAGE_SIZE ∣ addr := by
    have : IS_PAGE_ALIGNED addr = true := by
      by_contra no
      exact arguments (.inr (.inl (by simpa using no)))
    exact dvd_of_mod_eq_zero (by simpa [IS_PAGE_ALIGNED] using this)
  have stop : wrap (addr + align_up length PAGE_SIZE) = vma.stop := by
    by_contra other
    exact exact_area (.inr other)
  have aligned_stop : PAGE_SIZE ∣ wrap (addr + align_up length PAGE_SIZE) := by
    have words : PAGE_SIZE ∣ wordCount := by decide
    exact (dvd_mod_iff words).mpr (Dvd.dvd.add aligned (align_up_dvd _ _))
  refine ⟨vma,r,found,?_,aligned,stop ▸ aligned_stop,by omega,stop ▸ result,?_⟩
  · by_contra other
    exact exact_area (.inl other)
  cases done
  rfl

theorem page_of_inside {start stop : Nat} (first : PAGE_SIZE ∣ start) (last : PAGE_SIZE ∣ stop) (inside : start ≤ stop) :
    (start ≤ address ∧ address < stop) ↔
      (start ≤ page_of address ∧ page_of address < start + page_count start stop * PAGE_SIZE) := by
  have positive : 0 < PAGE_SIZE := by decide
  have pages : start + page_count start stop * PAGE_SIZE = stop := by
    obtain ⟨n,count⟩ := dvd_sub last first
    have exact_count : page_count start stop = n := by
      unfold page_count
      rw [count,add_comm,add_mul_div_left _ _ positive,div_eq_of_lt (by omega)]
      omega
    rw [exact_count,mul_comm,← count]
    omega
  rw [pages]
  have low : page_of address ≤ address := align_down_le _ _
  constructor
  · rintro ⟨above,below⟩
    exact ⟨le_align_down positive first above,by omega⟩
  rintro ⟨above,below⟩
  refine ⟨by omega,?_⟩
  by_contra beyond
  have := le_align_down positive last (by omega : stop ≤ address)
  exact absurd below (by unfold page_of; omega)

/-- A successful `mprotect` changes access only, and opens no page another process
    maps, exactly where the area is plain memory on frames of its own. -/
theorem mprotect_protects_iff_own {sys : System} {pid : Nat} {proc : Process} {addr length prot : Nat} {t : Space}
    {vma : Area} (done : sys_mprotect proc.vm addr length prot = (t,none))
    (target : find_vma proc.vm.vma_list addr = some vma) :
    Protected sys pid proc.vm t ↔ Own sys pid proc.vm vma prot := by
  obtain ⟨vma',r,target',start,aligned,aligned_stop,nonempty,result,rfl⟩ := sys_mprotect_done done
  cases target.symm.trans target'
  have same : r.vma_list = proc.vm.vma_list := (protect_pages_same result).vma_list
  have pages : ∀ address, lookup r address = if vma.Has address
      then (lookup proc.vm address).map (protected_page (has prot ARMOS_PROT_WRITE)) else lookup proc.vm address := by
    intro address
    rw [protect_pages_lookup aligned result]
    refine if_congr ?_ rfl rfl
    rw [← page_of_inside aligned aligned_stop nonempty.le,start]
    exact Iff.rfl
  have attributes := (set_vma_flags_attributes target).trans (mprotect_flags_attributes vma prot)
  rw [same]
  constructor
  · rintro ⟨kept,copied⟩
    obtain ⟨plain,lazy⟩ := attributes.mp kept
    refine ⟨plain,lazy,?_⟩
    intro write address m inside resident frame readonly elsewhere
    -- the page is writable after the call, so it was so before
    have after : lookup r address = some { m with flags := { m.flags with read := true, write := true, lazy := false } } := by
      rw [pages,if_pos inside,resident,write]
      simp [protected_page,frame]
    obtain ⟨old,before,writable,_⟩ := copied address _ after rfl
      ⟨vma,List.mem_of_find?_eq_some target,inside,plain.1⟩ elsewhere
    cases before.symm.trans resident
    exact absurd writable (by simp [readonly])
  rintro ⟨plain,lazy,alone⟩
  refine ⟨attributes.mpr ⟨plain,lazy⟩,?_⟩
  intro address m after writable _ elsewhere
  change lookup r address = some m at after
  rw [pages] at after
  by_cases inside : vma.Has address
  · rw [if_pos inside] at after
    obtain ⟨old,before,rfl⟩ := Option.map_eq_some_iff.mp after
    have frame : (protected_page (has prot ARMOS_PROT_WRITE) old).physical_address = old.physical_address := by
      unfold protected_page
      split
      · rfl
      · rfl
    rw [frame] at elsewhere ⊢
    refine ⟨old,before,?_,rfl⟩
    by_contra readonly
    grind [protected_page]
  rw [if_neg inside] at after
  exact ⟨m,after,writable,rfl⟩

def sample_page : List Move := [sample_spawn,(.op 0 (.brk (USER_HEAP_START + PAGE_SIZE)),[0x50002000,1,1])]

theorem mprotect_protects_iff_own_sample :
    ∃ proc t, (run_moves sample_boot sample_page).process 0 = some proc ∧
      sys_mprotect proc.vm USER_HEAP_START PAGE_SIZE ARMOS_PROT_READ = (t,none) ∧
      Protected (run_moves sample_boot sample_page) 0 proc.vm t := by
  have started : ((run_moves sample_boot sample_page).process 0).map (fun proc =>
      ((sys_mprotect proc.vm USER_HEAP_START PAGE_SIZE ARMOS_PROT_READ).2,find_vma proc.vm.vma_list USER_HEAP_START)) =
      some (none,some ⟨USER_HEAP_START,USER_HEAP_START + PAGE_SIZE,Flags.read_write,0⟩) := by decide
  obtain ⟨proc,found,result⟩ := Option.map_eq_some_iff.mp started
  obtain ⟨done,target⟩ := Prod.mk.inj result
  refine ⟨proc,_,found,Prod.ext rfl done,?_⟩
  refine (mprotect_protects_iff_own (Prod.ext rfl done) target).mpr ⟨by decide,by decide,?_⟩
  intro write
  exact absurd write (by decide)

/-- After a fork the parent makes its heap writable while the child maps its frame. -/
theorem mprotect_skips_copy :
    ∃ moves sys proc t, Run Step sample_boot moves sys ∧ sys.process 0 = some proc ∧
      sys_mprotect proc.vm USER_HEAP_START PAGE_SIZE (ARMOS_PROT_READ + ARMOS_PROT_WRITE) = (t,none) ∧
      ¬ Protected sys 0 proc.vm t := by
  let moves := sample_page ++ [(.op 0 .fork,List.replicate 12 1)]
  have forked : ((run_moves sample_boot moves).process 0).map (fun proc =>
      ((sys_mprotect proc.vm USER_HEAP_START PAGE_SIZE (ARMOS_PROT_READ + ARMOS_PROT_WRITE)).2,
        lookup (sys_mprotect proc.vm USER_HEAP_START PAGE_SIZE (ARMOS_PROT_READ + ARMOS_PROT_WRITE)).1 USER_HEAP_START,
        lookup proc.vm USER_HEAP_START,find_vma proc.vm.vma_list USER_HEAP_START)) =
      some (none,some ⟨USER_HEAP_START,0x50002000,Flags.read_write⟩,
        some ⟨USER_HEAP_START,0x50002000,{ Flags.read_write with write := false }⟩,
        some ⟨USER_HEAP_START,USER_HEAP_START + PAGE_SIZE,Flags.read_write,0⟩) := by decide +kernel
  have child : ((run_moves sample_boot moves).processes.any (fun proc =>
      proc.pid ≠ 0 ∧ proc.vm.mappings.any (fun m => m.physical_address = 0x50002000))) = true := by decide +kernel
  obtain ⟨proc,found,result⟩ := Option.map_eq_some_iff.mp forked
  simp only [Prod.mk.injEq] at result
  obtain ⟨done,after,before,area⟩ := result
  refine ⟨moves,_,proc,_,run_moves_run _ _,found,Prod.ext rfl done,?_⟩
  intro kept
  have elsewhere : MappedElsewhere (run_moves sample_boot moves) 0 0x50002000 := by
    obtain ⟨other,member,holds⟩ := List.any_eq_true.mp child
    obtain ⟨pid,mapped⟩ := of_decide_eq_true holds
    obtain ⟨m,inside,frame⟩ := List.any_eq_true.mp mapped
    exact ⟨other,member,pid,m,inside,of_decide_eq_true frame⟩
  obtain ⟨old,found_old,writable,_⟩ := kept.copied USER_HEAP_START _ after rfl
    ⟨_,List.mem_of_find?_eq_some area,by decide,rfl⟩ elsewhere
  cases before.symm.trans found_old
  cases writable

end ArmOS.Protect

