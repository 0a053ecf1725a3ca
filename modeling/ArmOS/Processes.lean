import ArmOS.Syscalls

/-!
The system: processes with their address spaces and descriptors, the files and the
kernel state they share, and the steps of system calls and memory accesses, with the
outcomes that allocations draw.
-/
namespace ArmOS.Processes
open Words Vma Frames Vm Shm Fork Syscalls
open Physical (PAGE_SIZE)
open Endpoints (MAX_FILES)

/-- The parts of `process_t` used; descriptors are addresses of files. -/
structure Process where
  pid : Nat
  vm : Space
  files : Nat → Nat
  cloexec : Nat → Bool
  rlimit_nofile_cur : Nat

/-- Processes are numbered in the order of their creation. -/
structure System where
  kernel : Kernel
  image : Image
  files : List File
  processes : List Process
  next_pid : Nat

def System.process (sys : System) (pid : Nat) : Option Process := Keyed.find Process.pid sys.processes pid
def System.update (sys : System) (k : Kernel) (proc : Process) : System :=
  { sys with kernel := k, processes := Keyed.change Process.pid sys.processes proc.pid (fun _ => proc) }
def System.file (sys : System) (address : Nat) : Option File := Keyed.find File.address sys.files address
def file_of_fd (sys : System) (proc : Process) (fd : Nat) : Option File :=
  if fd < MAX_FILES ∧ proc.files fd ≠ 0 then sys.file (proc.files fd) else none

/-! ### Files and descriptors -/

/-- `close_file`: the last reference closes the file. -/
def close_file (sys : System) (address : Nat) : System :=
  match sys.file address with
  | none => sys
  | some file =>
    if 1 < file.ref_count then
      { sys with files := Keyed.change File.address sys.files address (fun f => { f with ref_count := f.ref_count - 1 }) }
    else
      let k := match file.type with
        | .shm slot => shm_drop_handle sys.kernel slot
        | _ => sys.kernel
      { sys with kernel := k, files := Keyed.erase File.address sys.files address }

def get_file (sys : System) (address : Nat) : System :=
  { sys with files := Keyed.change File.address sys.files address (fun f => { f with ref_count := f.ref_count + 1 }) }

/-- The descriptor that `vfs_install_file` and `allocate_fd` choose. -/
def free_fd (proc : Process) : Option Nat :=
  (List.range (min proc.rlimit_nofile_cur MAX_FILES)).find? (fun fd => proc.files fd = 0)

/-- A descriptor of a process and its flag. -/
def Process.setFile (proc : Process) (fd address : Nat) (cloexec : Bool) : Process :=
  { proc with files := Function.update proc.files fd address, cloexec := Function.update proc.cloexec fd cloexec }

/-- `sys_close` of the descriptors that pass the test. -/
def close_fds (test : Process → Nat → Bool) (pid : Nat) : System → List Nat → System
  | sys, [] => sys
  | sys, fd :: rest =>
    match sys.process pid with
    | none => sys
    | some proc =>
      if proc.files fd ≠ 0 ∧ test proc fd then
        close_fds test pid (close_file (sys.update sys.kernel (proc.setFile fd 0 false)) (proc.files fd)) rest
      else close_fds test pid sys rest

/-! ### Shared memory calls -/

def ARMOS_SHM_OPEN_CREATE : Nat := 0x01
def ARMOS_SHM_OPEN_EXCLUSIVE : Nat := 0x02
def ARMOS_SHM_OPEN_READONLY : Nat := 0x04
def ARMOS_SHM_OPEN_CLOEXEC : Nat := 0x08
def ARMOS_SHM_OPEN_TRUNCATE : Nat := 0x10

/-- `shm_install_handle` for a handle that is counted already. -/
def shm_install_handle (sys : System) (proc : Process) (slot open_flags : Nat) : System × Except Errno Nat :=
  let address := draw sys.kernel.pool
  let sys := { sys with kernel := { sys.kernel with pool := drawn sys.kernel.pool } }
  if address = 0 ∨ (sys.file address).isSome then
    ({ sys with kernel := shm_drop_handle sys.kernel slot },.error .ENOMEM)
  else
    let access := if has open_flags ARMOS_SHM_OPEN_READONLY then Access.O_RDONLY else Access.O_RDWR
    let sys := { sys with files := sys.files ++ [⟨address,.shm slot,access,1,none⟩] }
    match free_fd proc with
    | none => (close_file sys address,.error .EMFILE)
    | some fd => (sys.update sys.kernel (proc.setFile fd address (has open_flags ARMOS_SHM_OPEN_CLOEXEC)),.ok fd)

/-- `sys_shm_open` under the lock: the slot, its handle counted. -/
def shm_open_locked (k : Kernel) (name : String) (size flags : Nat) : Kernel × Except Errno Nat :=
  match shm_find_by_name k name with
  | some i =>
    if has flags ARMOS_SHM_OPEN_CREATE && has flags ARMOS_SHM_OPEN_EXCLUSIVE then (k,.error .EEXIST)
    else if (k.shm_objects i).size < size then (k,.error .EINVAL)
    else
      match (if has flags ARMOS_SHM_OPEN_TRUNCATE then shm_resize_locked k i 0 else (k,none)) with
      | (k,some errno) => (k,.error errno)
      | (k,none) => (k.setObject i { k.shm_objects i with handles := (k.shm_objects i).handles + 1 },.ok i)
  | none =>
    if !has flags ARMOS_SHM_OPEN_CREATE then (k,.error .ENOENT)
    else
      match shm_alloc_slot k with
      | none => (k,.error .ENFILE)
      | some i =>
        let id := k.shm_next_id
        let next := wrap32 (id + 1)
        let k := { k with shm_next_id := if next = 0 then 1 else next }
        let k := k.setObject i { Object.zero with used := true, id := id, name := name }
        match shm_resize_locked k i size with
        | (k,some errno) => (k.setObject i Object.zero,.error errno)
        | (k,none) => (k.setObject i { k.shm_objects i with handles := 1 },.ok i)

/-- `sys_shm_open`; the name is `none` where it cannot be copied. -/
def sys_shm_open (sys : System) (proc : Process) (name : Option String) (size flags : Nat) :
    System × Except Errno Nat :=
  match name with
  | none => (sys,.error .EFAULT)
  | some name =>
    if name = "" ∨ 0x1F < flags then (sys,.error .EINVAL)
    else if has flags ARMOS_SHM_OPEN_EXCLUSIVE && !has flags ARMOS_SHM_OPEN_CREATE then (sys,.error .EINVAL)
    else if has flags ARMOS_SHM_OPEN_TRUNCATE && has flags ARMOS_SHM_OPEN_READONLY then (sys,.error .EINVAL)
    else if SHM_GLOBAL_MAX_BYTES < size then (sys,.error .EFBIG)
    else
      match shm_open_locked sys.kernel name (align_up size PAGE_SIZE) flags with
      | (k,.error errno) => ({ sys with kernel := k },.error errno)
      | (k,.ok slot) => shm_install_handle { sys with kernel := k } proc slot flags

def sys_shm_unlink (k : Kernel) (name : Option String) : Kernel × Option Errno :=
  match name with
  | none => (k,some .EFAULT)
  | some name =>
    match shm_find_by_name k name with
    | none => (k,some .ENOENT)
    | some i => (shm_try_destroy_locked (k.setObject i { k.shm_objects i with unlinked := true, name := "" }) i,none)

/-- `sys_ftruncate`; only handles of shared memory objects reach `shm_file_truncate`. -/
def sys_ftruncate (k : Kernel) (file : Option File) (length : Nat) : Kernel × Option Errno :=
  match file with
  | none => (k,some .EBADF)
  | some file =>
    if !can_write file then (k,some .EBADF)
    else
      match file.type with
      | .shm slot => shm_resize_locked k slot length
      | _ => (k,some .ENOSYS)

/-! ### Processes -/

/-- `copy_process_files`: the child holds every file once more. -/
def copy_process_files (proc : Process) (sys : System) : System :=
  (List.range MAX_FILES).foldl (fun sys fd => if proc.files fd ≠ 0 then get_file sys (proc.files fd) else sys) sys

/-- `sys_fork`: `fork_vm_space`, then the descriptors. -/
def sys_fork (sys : System) (proc : Process) : System :=
  match fork_vm_space sys.kernel proc.vm with
  | (k,parent,none) => sys.update k { proc with vm := parent }
  | (k,parent,some child) =>
    let sys := copy_process_files proc (sys.update k { proc with vm := parent })
    { sys with
      processes := sys.processes ++ [{ proc with pid := sys.next_pid, vm := child }]
      next_pid := sys.next_pid + 1 }

/-- `destroy_process`: files are closed, the space destroyed. -/
def sys_exit (sys : System) (proc : Process) : System :=
  let sys := close_fds (fun _ _ => true) proc.pid sys (List.range MAX_FILES)
  match sys.process proc.pid with
  | none => sys
  | some proc =>
    { sys with
      kernel := destroy_vm_space sys.kernel proc.vm
      processes := Keyed.erase Process.pid sys.processes proc.pid }

/-- The first process of a program, without descriptors. -/
def spawn (sys : System) (program : Program) (rlimit_nofile_cur : Nat) : System :=
  match exec_space sys.kernel program with
  | (k,none) => { sys with kernel := k }
  | (k,some s) =>
    { sys with
      kernel := k
      processes := sys.processes ++ [⟨sys.next_pid,s,fun _ => 0,fun _ => false,rlimit_nofile_cur⟩]
      next_pid := sys.next_pid + 1 }

/-- `sys_execve`: the old space is destroyed after the marked descriptors are closed. -/
def sys_execve (sys : System) (proc : Process) (program : Program) : System :=
  match exec_space sys.kernel program with
  | (k,none) => { sys with kernel := k }
  | (k,some s) =>
    let sys := sys.update k { proc with vm := s }
    let sys := close_fds (fun proc fd => proc.cloexec fd) proc.pid sys (List.range MAX_FILES)
    { sys with kernel := destroy_vm_space sys.kernel proc.vm }

def sys_dup (sys : System) (proc : Process) (oldfd : Nat) : System :=
  match file_of_fd sys proc oldfd,free_fd proc with
  | some file,some fd => (get_file sys file.address).update sys.kernel (proc.setFile fd file.address false)
  | _,_ => sys

inductive Op
  | fork
  | exit
  | execve (program : Program)
  | signal_stack
  | user_write (address byte : Nat)
  | user_read (address : Nat)
  | copy_to_user (address : Nat) (bytes : List Nat)
  | mmap (addr length prot flags : Nat) (fd : Int) (offset : Nat)
  | munmap (addr length : Nat)
  | mprotect (addr length prot : Nat)
  | brk (addr : Nat)
  | shm_open (name : Option String) (size flags : Nat)
  | shm_unlink (name : Option String)
  | shm_map (fd addr flags : Nat)
  | shm_unmap (addr size : Nat)
  | ftruncate (fd length : Nat)
  | close (fd : Nat)
  | dup (fd : Nat)

/-- A new process, or an operation of one. -/
inductive Label
  | spawn (program : Program) (rlimit_nofile_cur : Nat)
  | open_file (pid : Nat) (file : File)
  | op (pid : Nat) (op : Op)

/-- An operation of a process that only changes its space. -/
def on_space (sys : System) (proc : Process) (f : Kernel → Space → Kernel × Space) : System :=
  let (k,s) := f sys.kernel proc.vm
  sys.update k { proc with vm := s }

/-- An operation that changes the frames and the space. -/
def on_pool (sys : System) (proc : Process) (f : Pool → Space → Pool × Space) : System :=
  on_space sys proc (fun k s => ({ k with pool := (f k.pool s).1 },(f k.pool s).2))

/-- A load of user code with the fault it takes. -/
def user_read (p : Pool) (s : Space) (address : Nat) : Pool × Space :=
  match lookup s address with
  | some _ => (p,s)
  | none =>
    match translation_fault p s address false with
    | (p,none) => (p,s)
    | (p,some s) => (p,s)

def run_op (sys : System) (proc : Process) : Op → System
  | .fork => sys_fork sys proc
  | .exit => sys_exit sys proc
  | .execve program => sys_execve sys proc program
  | .signal_stack => on_pool sys proc allocate_process_signal_stack
  | .user_write address byte =>
    on_pool sys proc (fun p s => ((user_write p s address byte).1,(user_write p s address byte).2.1))
  | .user_read address => on_pool sys proc (fun p s => user_read p s address)
  | .copy_to_user address bytes =>
    on_pool sys proc (fun p s =>
      ((copy_to_user sys.image p s address bytes).1,(copy_to_user sys.image p s address bytes).2.1))
  | .mmap addr length prot flags fd offset =>
    on_space sys proc (fun k s =>
      let r := sys_mmap k s addr length prot flags fd (file_of_fd sys proc fd.toNat) offset
      (r.1,r.2.1))
  | .munmap addr length => on_space sys proc (fun k s => ((sys_munmap k s addr length).1,(sys_munmap k s addr length).2.1))
  | .mprotect addr length prot => on_space sys proc (fun k s => (k,(sys_mprotect s addr length prot).1))
  | .brk addr => on_space sys proc (fun k s => ((sys_brk k s addr).1,(sys_brk k s addr).2.1))
  | .shm_open name size flags => (sys_shm_open sys proc name size flags).1
  | .shm_unlink name => { sys with kernel := (sys_shm_unlink sys.kernel name).1 }
  | .shm_map fd addr flags =>
    on_space sys proc (fun k s =>
      let r := sys_shm_map k s (file_of_fd sys proc fd) addr flags
      (r.1,r.2.1))
  | .shm_unmap addr size =>
    on_space sys proc (fun k s => ((sys_shm_unmap k s addr size).1,(sys_shm_unmap k s addr size).2.1))
  | .ftruncate fd length => { sys with kernel := (sys_ftruncate sys.kernel (file_of_fd sys proc fd) length).1 }
  | .close fd => close_fds (fun _ _ => true) proc.pid sys (if fd < MAX_FILES then [fd] else [])
  | .dup fd => sys_dup sys proc fd

/-- An opened file gets a descriptor. -/
def open_file (sys : System) (proc : Process) (file : File) : System :=
  match file.type,free_fd proc with
  | .shm _,_ => sys
  | _,none => sys
  | _,some fd =>
    if file.address = 0 ∨ (sys.file file.address).isSome then sys
    else
      { sys with files := sys.files ++ [{ file with ref_count := 1 }] }.update sys.kernel
        (proc.setFile fd file.address false)

/-- One step with the outcomes that it draws. -/
def step (sys : System) (label : Label) (fate : List Nat) : System :=
  let sys := { sys with kernel := { sys.kernel with pool := { sys.kernel.pool with fate := fate } } }
  match label with
  | .spawn program limit => spawn sys program limit
  | .open_file pid file =>
    match sys.process pid with
    | none => sys
    | some proc => open_file sys proc file
  | .op pid op =>
    match sys.process pid with
    | none => sys
    | some proc => run_op sys proc op

/-- After boot: no process, file or object, all frames free. -/
def boot (image : Image) (device : Nat → Bool) (content : Nat → Buddy.Content) : System :=
  ⟨⟨⟨fun _ => 0,content,device,[]⟩,fun _ => Object.zero,1,0⟩,image,[],[],0⟩

end ArmOS.Processes

