/-
What all cores share about tasks.

The directory hands out task ids, knows on which core each placed task lives, which task
provides which service, and keeps the tasks that wait until some core is online. It also
chooses the core of a new task: the one with the lowest score, where
`score = baseScore - affinityBias (if the task ran there last) + load`.
Tasks never move once they are placed.
-/
import Microkernel.IdPool
import Microkernel.Registry
import Microkernel.Table
import Microkernel.Task.Basic

namespace Microkernel

/-- The score of a core without load. -/
def baseScore : Nat := 1000

/-- The advantage of the core that a task ran on last. -/
def affinityBias : Nat := 3

/-- Ids, homes, services and parked tasks. -/
structure Directory where
  ids : IdPool
  /-- The core of each task that was placed. -/
  homes : Table CoreId
  registry : Registry
  /-- The tasks that wait for a core, oldest first. -/
  parked : List Task
  deriving DecidableEq

namespace Directory

/-- A directory that hands out ids below `maxIds`. -/
def new (maxIds : Nat) : Directory where
  ids := .new maxIds
  homes := .empty
  registry := .empty
  parked := []

/-- Hands out the lowest free id. -/
def generateId (d : Directory) : Except Error TaskId × Directory :=
  let (result, ids) := d.ids.generate
  (result, { d with ids := ids })

/-- Takes an id back; answers whether it was in use. -/
def freeId (d : Directory) (id : TaskId) : Bool × Directory :=
  let (released, ids) := d.ids.release id
  (released, { d with ids := ids })

/-- Number of ids in use. -/
def liveIds (d : Directory) : Nat :=
  d.ids.allocated

/-- How much speaks against a core; the lowest score wins. -/
def score (lastCore : Option CoreId) (core : CoreId) (load : Nat) : Nat :=
  baseScore - (if lastCore = some core then affinityBias else 0) + load

/-- The better of two candidates: the lower score, and of equal ones the lower core. -/
def better (lastCore : Option CoreId) (a b : CoreId × Nat) : CoreId × Nat :=
  let sa := score lastCore a.1 a.2
  let sb := score lastCore b.1 b.2
  if sb < sa ∨ (sb = sa ∧ b.1 < a.1) then b else a

/-- The best core for a task among candidates with their loads. -/
def chooseCore (lastCore : Option CoreId) : List (CoreId × Nat) → Option CoreId
  | [] => none
  | first :: rest => some (rest.foldl (better lastCore) first).1

/-- Notes where a task lives. -/
def recordHome (d : Directory) (id : TaskId) (core : CoreId) : Directory :=
  { d with homes := d.homes.insert id core }

/-- The core where a task lives. -/
def homeOf (d : Directory) (id : TaskId) : Option CoreId :=
  d.homes.get? id

/-- The task that a recipient stands for, and the core where it lives. -/
def resolve (d : Directory) (recipient : Recipient) : Except Error (TaskId × CoreId) :=
  match d.registry.resolve recipient with
  | .error e => .error e
  | .ok id =>
    match d.homeOf id with
    | none => .error .recipientNotFound
    | some core => .ok (id, core)

/-- Makes a task the provider of a service; answers the provider it replaces. -/
def register (d : Directory) (service : Service) (task : TaskId) : Option TaskId × Directory :=
  let (before, registry) := d.registry.register service task
  (before, { d with registry := registry })

/-- Ends a task's provision of a service; answers whether it was the provider. -/
def unregister (d : Directory) (service : Service) (task : TaskId) : Bool × Directory :=
  let (ended, registry) := d.registry.unregister service task
  (ended, { d with registry := registry })

/-- Names the task that stands for the service registry. -/
def setRegistryTask (d : Directory) (task : Option TaskId) : Directory :=
  { d with registry := d.registry.setRegistryTask task }

/-- Forgets everything about a task that ended, and frees its id; answers whether the id was
in use. -/
def forget (d : Directory) (id : TaskId) : Bool × Directory :=
  { d with
    homes := d.homes.erase id
    registry := (d.registry.remove id).2 }.freeId id

/-- Keeps a task until a core is online. -/
def park (d : Directory) (task : Task) : Directory :=
  { d with parked := d.parked ++ [task] }

/-- Hands out the parked tasks. -/
def takeParked (d : Directory) : List Task × Directory :=
  (d.parked, { d with parked := [] })

end Directory

end Microkernel
