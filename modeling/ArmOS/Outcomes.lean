import ArmOS.Processes

/-!
The outcomes of `shm_map_fd`: a property of its result follows from a property
of every refusal and of `map_object` on the arguments that pass its checks.
-/
namespace ArmOS.Outcomes
open Words Vma Frames Vm Shm Syscalls
open Physical (PAGE_SIZE)

variable {k : Kernel} {s : Space}

def withPool (k : Kernel) (p : Pool) : Kernel := { k with pool := p }

/-- The flags that `shm_map_fd` accepts. -/
def ObjectFlags (flags : Flags) : Prop :=
  (flags.read = true ∨ flags.write = true) ∧ flags.exec = false ∧ flags.kernel = false ∧ flags.lazy = false ∧
    flags.dontfork = false ∧ flags.external = false

/-- An address that `shm_map_fd` was given, or one that it found. -/
def ObjectPlace (s : Space) (vaddr mapping_size : Nat) : Prop :=
  vaddr ≠ 0 ∧ (vaddr % PAGE_SIZE = 0 ∧ USER_SHM_START ≤ vaddr ∧ vaddr ≤ USER_SHM_END - mapping_size ∨
    vaddr = shm_find_free_vaddr s.vma_list mapping_size)

theorem shm_map_fd_cases {P : Kernel × Space × Except Errno Nat → Prop} {vma_flags : Flags} {file : Option File}
    {addr requested_size : Nat} (refused : ∀ errno, P (k,s,.error errno))
    (map : ∀ f i vaddr mapping_size, file = some f → f.type = .shm i → ObjectFlags vma_flags →
      (k.shm_objects i).used = true → mapping_size ≠ 0 → mapping_size ≤ (k.shm_objects i).size →
      ObjectPlace s vaddr mapping_size → P (map_object k s i vaddr mapping_size vma_flags)) :
    P (shm_map_fd k s file addr requested_size vma_flags) := by
  unfold shm_map_fd
  dsimp only
  by_cases flags_ok : ObjectFlags vma_flags
  · obtain ⟨access,no_exec,no_kernel,no_lazy,no_dontfork,no_external⟩ := flags_ok
    have passed : (!(vma_flags.read || vma_flags.write) || vma_flags.exec || vma_flags.kernel || vma_flags.lazy ||
        vma_flags.dontfork || vma_flags.external) = false := by
      rcases access with can | can <;> simp [can,no_exec,no_kernel,no_lazy,no_dontfork,no_external]
    rw [passed,if_neg (by simp)]
    split
    · rename_i a i f c r
      split
      · exact refused _
      rename_i used
      generalize (if requested_size ≠ 0 then align_up requested_size PAGE_SIZE else (k.shm_objects i).size) =
        mapping_size
      split
      · exact refused _
      split
      · exact refused _
      rename_i size_ok
      have fits : mapping_size ≤ (k.shm_objects i).size := by omega
      have here := map ⟨a,.shm i,f,c,r⟩ i
      split
      · rename_i given
        split
        · exact refused _
        rename_i bounds
        exact here addr _ rfl rfl ⟨access,no_exec,no_kernel,no_lazy,no_dontfork,no_external⟩
          (by simpa using used) (by omega) fits ⟨given,.inl ⟨by omega,by omega,by omega⟩⟩
      split
      · exact refused _
      rename_i found
      exact here _ _ rfl rfl ⟨access,no_exec,no_kernel,no_lazy,no_dontfork,no_external⟩
        (by simpa using used) (by omega) fits ⟨found,.inr rfl⟩
    · exact refused _
  have failed : (!(vma_flags.read || vma_flags.write) || vma_flags.exec || vma_flags.kernel || vma_flags.lazy ||
      vma_flags.dontfork || vma_flags.external) = true := by
    by_contra no
    simp only [Bool.not_eq_true,Bool.or_eq_false_iff,Bool.not_eq_false'] at no
    obtain ⟨⟨⟨⟨⟨access,no_exec⟩,no_kernel⟩,no_lazy⟩,no_dontfork⟩,no_external⟩ := no
    exact flags_ok ⟨by simpa using access,no_exec,no_kernel,no_lazy,no_dontfork,no_external⟩
  rw [failed,if_pos rfl]
  exact refused _

end ArmOS.Outcomes
