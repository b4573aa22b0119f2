/-
Doubly linked queues of task ids.

The links of a queue live in a table indexed by task id, so that an operation that is
given an id never searches. An id is in a queue at most once; a queue holds ids, never the
tasks themselves.

`TaskQueue.toList` walks the queue from its head and is its view. Insertions and removals
answer whether they did anything, and change nothing when they did not.

Design notes: an entry of the link table is `none` for an id that is not linked, so
membership is one look-up. Operations read the table with `[i]?` and write it with total
updates, so none can reach outside of it. Ids are numbers without a bound here; the size of a table
that has an entry for the largest machine word would not be a machine word any more.
-/
import Microkernel.Config

namespace Microkernel

/-- The neighbours of a linked id. -/
structure Link where
  previous : Option TaskId := none
  next : Option TaskId := none
  deriving DecidableEq

/-- A queue of distinct task ids. -/
structure TaskQueue where
  head : Option TaskId := none
  tail : Option TaskId := none
  /-- The link of each id in the queue, at the index of the id. -/
  links : Array (Option Link) := #[]
  length : Nat := 0
  deriving DecidableEq

namespace TaskQueue

/-- The queue without elements. -/
def empty : TaskQueue := {}

/-- The link of an id, if it is in the queue. -/
def link? (q : TaskQueue) (id : TaskId) : Option Link :=
  (q.links[id]?).join

/-- The id is in the queue. -/
def contains (q : TaskQueue) (id : TaskId) : Bool :=
  (q.link? id).isSome

/-- No id is in the queue. -/
def isEmpty (q : TaskQueue) : Bool :=
  q.head.isNone

/-- The id behind a linked id. -/
def next (q : TaskQueue) (id : TaskId) : Option TaskId :=
  (q.link? id).bind Link.next

/-- The id in front of a linked id. -/
def previous (q : TaskQueue) (id : TaskId) : Option TaskId :=
  (q.link? id).bind Link.previous

/-- The ids met from `cursor` on, following at most `steps` links. -/
def walk (q : TaskQueue) : Nat → Option TaskId → List TaskId
  | 0, _ => []
  | _ + 1, none => []
  | steps + 1, some id => id :: q.walk steps (q.next id)

/-- The ids from head to tail. -/
def toList (q : TaskQueue) : List TaskId :=
  q.walk q.length q.head

/-- Changes the link of a linked id. -/
def relink (q : TaskQueue) (id : TaskId) (f : Link → Link) : TaskQueue :=
  { q with links := q.links.modify id (Option.map f) }

/-- The link table, long enough to have an entry for `id`. -/
def grown (links : Array (Option Link)) (id : TaskId) : Array (Option Link) :=
  links ++ Array.replicate (id + 1 - links.size) none

/-- Enters a new id with its link into the table and counts it. -/
def enter (q : TaskQueue) (id : TaskId) (link : Link) : TaskQueue :=
  { q with
    links := (grown q.links id).setIfInBounds id (some link)
    length := q.length + 1 }

/-- Makes `id` the successor of `previous`, or the head when there is no predecessor. -/
def setNextOf (q : TaskQueue) (previous : Option TaskId) (id : Option TaskId) : TaskQueue :=
  match previous with
  | some p => q.relink p fun link => { link with next := id }
  | none => { q with head := id }

/-- Makes `id` the predecessor of `next`, or the tail when there is no successor. -/
def setPreviousOf (q : TaskQueue) (next : Option TaskId) (id : Option TaskId) : TaskQueue :=
  match next with
  | some n => q.relink n fun link => { link with previous := id }
  | none => { q with tail := id }

/-- Links a new id between two neighbours. -/
def between (q : TaskQueue) (previous : Option TaskId) (id : TaskId) (next : Option TaskId) :
    TaskQueue :=
  ((q.setNextOf previous (some id)).setPreviousOf next (some id)).enter id ⟨previous, next⟩

/-- Links an id behind the tail. -/
def append (q : TaskQueue) (id : TaskId) : Bool × TaskQueue :=
  if q.contains id then (false, q) else (true, q.between q.tail id none)

/-- Links an id in front of another one, or behind the tail when there is none to stand in
front of. -/
def insertBefore (q : TaskQueue) (id : TaskId) (before : Option TaskId) : Bool × TaskQueue :=
  match before with
  | none => q.append id
  | some b =>
    if q.contains id || !q.contains b then (false, q)
    else (true, q.between (q.previous b) id (some b))

/-- Links an id right behind another one. -/
def insertAfter (q : TaskQueue) (id after : TaskId) : Bool × TaskQueue :=
  if q.contains id || !q.contains after then (false, q)
  else (true, q.between (some after) id (q.next after))

/-- Unlinks an id and forgets its link. -/
def remove (q : TaskQueue) (id : TaskId) : Bool × TaskQueue :=
  match q.link? id with
  | none => (false, q)
  | some link =>
    -- the entry goes first, then the neighbours are joined
    let q := { q with links := q.links.setIfInBounds id none, length := q.length - 1 }
    (true, (q.setNextOf link.previous link.next).setPreviousOf link.next link.previous)

end TaskQueue

end Microkernel
