import ArmOS.Processes

/-!
Steps of the system as a relation, and what the parts of a step that work on
descriptors and on the table of processes leave alone.
-/
namespace ArmOS.Moves
open Runs Vm Shm Fork Syscalls Processes List
open Endpoints (MAX_FILES)

/-- What happens in a step, and what its allocations draw. -/
abbrev Move := Label × List Nat
def Step (sys : System) (move : Move) (next : System) : Prop := next = step sys move.1 move.2
def Spaces (P : Space → Prop) (sys : System) : Prop := ∀ proc ∈ sys.processes, P proc.vm
variable {proc : Process} {sys : System} {pid : Nat}

theorem process_mem (found : sys.process pid = some proc) : proc ∈ sys.processes := Keyed.find_mem found
theorem close_file_processes (sys : System) (address : Nat) : (close_file sys address).processes = sys.processes := by
  unfold close_file
  split
  · rfl
  split
  · rfl
  · rfl

theorem copy_process_files_processes (proc : Process) (sys : System) :
    (copy_process_files proc sys).processes = sys.processes := by
  unfold copy_process_files
  generalize range MAX_FILES = fds
  induction fds generalizing sys with
  | nil => rfl
  | cons fd rest ih =>
    rw [foldl_cons,ih]
    split
    · rfl
    · rfl

section
variable {P : Space → Prop} {sys : System}

section
variable (all : Spaces P sys)
include all

theorem Spaces.update (k : Kernel) (proc : Process) (one : P proc.vm) : Spaces P (sys.update k proc) := by
  intro other member
  obtain ⟨old,from_old,rfl⟩ := mem_map.mp member
  split
  · exact one
  · exact all old from_old

variable {next : System}

theorem Spaces.append (one : P proc.vm) (added : next.processes = sys.processes ++ [proc]) : Spaces P next := by
  intro other member
  rw [added] at member
  rcases mem_append.mp member with old | new
  · exact all other old
  rw [mem_singleton.mp new]
  exact one

theorem Spaces.of_processes (same : next.processes = sys.processes) : Spaces P next := by
  intro proc member
  rw [same] at member
  exact all proc member

theorem Spaces.close_file (address : Nat) : Spaces P (close_file sys address) :=
  all.of_processes (close_file_processes sys address)
theorem Spaces.close_fds (test : Process → Nat → Bool) (pid : Nat) (fds : List Nat) :
    Spaces P (close_fds test pid sys fds) := by
  induction fds generalizing sys with
  | nil => exact all
  | cons fd rest ih =>
    unfold close_fds
    split
    · exact all
    rename_i proc found
    split
    · exact ih ((all.update sys.kernel (proc.setFile _ 0 false) (all proc (process_mem found))).close_file _)
    · exact ih all

theorem Spaces.shm_install_handle (one : P proc.vm) (slot flags : Nat) :
    Spaces P (shm_install_handle sys proc slot flags).1 := by
  unfold Processes.shm_install_handle
  dsimp only
  split
  · exact all
  split
  · refine Spaces.close_file ?_ _
    exact all
  refine Spaces.update ?_ _ _ one
  exact all

theorem Spaces.sys_shm_open (one : P proc.vm) (name : Option String)
    (size flags : Nat) : Spaces P (sys_shm_open sys proc name size flags).1 := by
  unfold Processes.sys_shm_open
  split
  · exact all
  split
  · exact all
  split
  · exact all
  split
  · exact all
  split
  · exact all
  split
  · exact all
  refine Spaces.shm_install_handle ?_ one _ _
  exact all

theorem Spaces.open_file (one : P proc.vm) (file : File) : Spaces P (open_file sys proc file) := by
  unfold Processes.open_file
  split
  · exact all
  · exact all
  split
  · exact all
  refine Spaces.update ?_ _ _ one
  exact all

theorem Spaces.sys_dup (one : P proc.vm) (fd : Nat) : Spaces P (sys_dup sys proc fd) := by
  unfold Processes.sys_dup
  split
  · refine Spaces.update ?_ _ _ one
    exact all
  · exact all

theorem Spaces.sys_exit (proc : Process) : Spaces P (sys_exit sys proc) := by
  have closed := all.close_fds (fun _ _ => true) proc.pid (range MAX_FILES)
  unfold Processes.sys_exit
  dsimp only
  split
  · exact closed
  intro other member
  exact closed other ((Keyed.erase_sublist _ _).subset member)

theorem Spaces.sys_execve (proc : Process) (program : Program)
    (built : ∀ k' s, exec_space sys.kernel program = (k',some s) → P s) : Spaces P (sys_execve sys proc program) := by
  unfold Processes.sys_execve
  split
  · exact all
  rename_i k s result
  exact Spaces.close_fds (all.update k { proc with vm := s } (built k s result)) _ _ _

theorem Spaces.spawn (program : Program) (limit : Nat)
    (built : ∀ k' s, exec_space sys.kernel program = (k',some s) → P s) : Spaces P (spawn sys program limit) := by
  unfold Processes.spawn
  split
  · exact all
  rename_i k s result
  exact all.append (built k s result) rfl

theorem Spaces.sys_fork (proc : Process)
    (forked : P (fork_vm_space sys.kernel proc.vm).2.1 ∧ ∀ child ∈ (fork_vm_space sys.kernel proc.vm).2.2, P child) :
    Spaces P (sys_fork sys proc) := by
  unfold Processes.sys_fork
  split
  · rename_i k parent result
    rw [result] at forked
    exact all.update k { proc with vm := parent } forked.1
  rename_i k parent child result
  rw [result] at forked
  have parents := all.update k { proc with vm := parent } forked.1
  exact (parents.of_processes (copy_process_files_processes proc _)).append (forked.2 child rfl) rfl

end

end

/-! ### A small system -/

def sample_program : Program :=
  ⟨[⟨0x100000000,4096,⟨true,false,true,false,false,false,false,false⟩,fun _ _ => 7⟩],1,fun _ _ => 0⟩
def sample_boot : System := boot ⟨0x40080000,0x44000000⟩ (fun _ => false) (fun _ _ => 0)
def sample_spawn : Move := (.spawn sample_program 32,[1,1,0x50000000,1,1,0x50001000,1])
def run_moves (sys : System) (moves : List Move) : System := moves.foldl (fun sys move => step sys move.1 move.2) sys
theorem run_moves_run (sys : System) (moves : List Move) : Run Step sys moves (run_moves sys moves) := by
  induction moves generalizing sys with
  | nil => exact .done sys
  | cons move rest ih => exact .next rfl (ih (step sys move.1 move.2))

end ArmOS.Moves

