/-
Building tasks.

`Launcher.kernelTask` and `Launcher.userTask` build a task that is ready for its first
context switch. A task is answered only once everything it needs exists; when something
cannot be had, all that was acquired before is given back, and the error names the resource.

A kernel task starts at its entry address in the kernel's address space. A user task starts
in the user-launch code, which finds on its stack the root of the task's own address space,
the top of its user stack, its entry address and the address of its path (zero without one).
-/
import Microkernel.Task.Basic

namespace Microkernel

/-- The sizes that new tasks get. -/
structure Launcher where
  stackSize : Nat
  userStackPages : Nat
  mailboxSize : Nat
  deriving DecidableEq

/-- What identifies a new task: its id, its name and how urgent it is. -/
structure TaskRequest where
  id : TaskId
  name : String
  priority : Priority
  deriving DecidableEq

namespace Launcher

/-- The sizes that a configuration asks for. -/
def ofConfig (config : Config) : Launcher where
  stackSize := config.stackSize
  userStackPages := config.userStackPages
  mailboxSize := config.mailboxSize

/-- The memory every task has: a kernel stack with its first frame, and a mailbox. They are
acquired in this order. -/
def acquire (l : Launcher) (m : Machine) (entry : Nat) (extras : List Nat) :
    Except Error (KernelStack × Mailbox) × Machine :=
  match KernelStack.allocate m l.stackSize with
  | (.error e, m) => (.error e, m)
  | (.ok stack, m) =>
    match stack.withFirstFrame Machine.entryPoints entry extras with
    | .error e => (.error e, m.free .kernel)
    | .ok stack =>
      match Mailbox.withCapacity l.mailboxSize with
      | .error e => (.error e, m.free .kernel)
      | .ok mailbox => (.ok (stack, mailbox), m)

/-- A task that has not run, with its memory. -/
def assemble (request : TaskRequest) (stack : KernelStack) (mailbox : Mailbox) : Task where
  id := request.id
  name := request.name
  state := .ready
  priority := request.priority
  wakeTime := 0
  lastCore := none
  waitSince := none
  stackPointer := stack.pointer
  mailbox := mailbox
  space := Machine.kernelRoot
  heap := .kernel
  user := none
  stack := stack

/-- A kernel task that starts at `entry`. -/
def kernelTask (l : Launcher) (m : Machine) (request : TaskRequest) (entry : Nat) :
    Except Error Task × Machine :=
  match l.acquire m entry [] with
  | (.error e, m) => (.error e, m)
  | (.ok (stack, mailbox), m) => (.ok (assemble request stack mailbox), m)

/-- The bytes of a path argument: its text and a zero byte. -/
def pathBytes (path : String) : Bytes :=
  path.toUTF8.data.toList ++ [0]

/-- Maps a path into an address space. -/
def mapPath (m : Machine) (root : Nat) (path : String) : Option Mapping × Machine :=
  let bytes := pathBytes path
  let pages := (bytes.length + pageSize - 1) / pageSize
  match m.mapPages root pages .userData (some userArgumentsBase) with
  | (none, m) => (none, m)
  | (some base, m) =>
    match m.write root base bytes with
    | (true, m) => (some ⟨base, pages⟩, m)
    | (false, m) => (none, m.unmapPages root base pages)

/-- Maps the path of a user task, if it has one. -/
def mapArguments (m : Machine) (root : Nat) (path : Option String) :
    Except Error (Option Mapping) × Machine :=
  match path with
  | none => (.ok none, m)
  | some path =>
    match mapPath m root path with
    | (none, m) => (.error (.allocationFailed .arguments), m)
    | (some mapping, m) => (.ok (some mapping), m)

/-- Pages of a state segment. -/
def segmentPages : Nat := (StateSegment.size + pageSize - 1) / pageSize

/-- Ends a space that a user task was to have, after its creation failed. -/
def abandon (m : Machine) (root : Nat) (mappings : List Mapping) (e : Error) :
    Except Error Task × Machine :=
  (.error e, releaseSpace root mappings m)

/-- The words that the user-launch code finds on the stack. The top of the user stack is a machine
word, however many pages there are. -/
def launchWords (root : Nat) (stack : Mapping) (entry : Nat) (arguments : Option Mapping) :
    List Nat :=
  [root, (stack.base + stack.pages * pageSize) % wordSpan, entry,
    (arguments.map Mapping.base).getD 0]

/-- A user task in the address space `root`, which is its own from here on. -/
def userTaskIn (l : Launcher) (m : Machine) (root : Nat) (request : TaskRequest) (entry : Nat)
    (path : Option String) : Except Error Task × Machine :=
  match m.mapPages root segmentPages .kernelData (some userSegmentBase) with
  | (none, m) => abandon m root [] (.allocationFailed .stateSegment)
  | (some base, m) =>
    let segment : Mapping := ⟨base, segmentPages⟩
    match m.mapPages root l.userStackPages .userData (some userStackBase) with
    | (none, m) => abandon m root [segment] (.allocationFailed .userStack)
    | (some base, m) =>
      let stack : Mapping := ⟨base, l.userStackPages⟩
      match m.createHeap root with
      | none => abandon m root [stack, segment] (.allocationFailed .heap)
      | some heap =>
        match mapArguments m root path with
        | (.error e, m) => abandon m root [stack, segment] e
        | (.ok arguments, m) =>
          let mappings := [stack, segment] ++ arguments.toList
          match l.acquire m Machine.entryPoints.userLaunch
              (launchWords root stack entry arguments) with
          | (.error e, m) => abandon m root mappings e
          | (.ok (kernelStack, mailbox), m) =>
            -- written last, since it names the kernel stack
            let record := StateSegment.ofStackTop kernelStack.top
            match m.write root segment.base record.bytes with
            | (false, m) =>
              abandon (m.free .kernel) root mappings (.allocationFailed .stateSegment)
            | (true, m) =>
              let image : UserImage :=
                { root, stack, segmentPages := segment, segment := record, arguments }
              (.ok { assemble request kernelStack mailbox with
                      space := root, heap := heap, user := some image }, m)

/-- A user task that enters user mode at `entry` in a fresh address space. -/
def userTask (l : Launcher) (m : Machine) (request : TaskRequest) (entry : Nat)
    (path : Option String) : Except Error Task × Machine :=
  match m.cloneSpace with
  | (none, m) => (.error (.allocationFailed .addressSpace), m)
  | (some root, m) => l.userTaskIn m root request entry path

end Launcher

end Microkernel
