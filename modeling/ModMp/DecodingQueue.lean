import ModMp.ErrorMessages
import ModMp.SlotMask

/-!
# The decoding queue

The queue is an array of 64 jobs, two words that mark the waiting and the working slots from the
most significant bit on, and a list of the waiting slots that is threaded through the `next` fields
from `head` to `tail`. Every operation locks the queue first. A lock that is held blocks for good,
and a slot number outside the array has no result; both are faults here.

The natural-order comparison and the error texts of APR are parameters. The bits of the `float`
`progress` are only copied.
-/

namespace ModMp
open CLib SlotMask

abbrev Slot := Fin 64

inductive QueueFault
  | blocked
  | slotOutOfRange (index : ℤ)
  deriving DecidableEq

/-- The fields of a job that the queue only copies. -/
structure JobData where
  songId : List.Vector UInt8 256
  artistId : List.Vector UInt8 256
  albumId : List.Vector UInt8 256
  sourceId : List.Vector UInt8 256
  inputFilePath : List.Vector UInt8 1024
  inputFileType : List.Vector UInt8 1024
  outputFileType : List.Vector UInt8 256
  outputFilePath : List.Vector UInt8 1024
  newSourceId : List.Vector UInt8 256
  progress : UInt32

structure DecodingJob extends JobData where
  index : ℤ
  status : List.Vector UInt8 512
  next : ℤ

structure Queue where
  head : ℤ
  tail : ℤ
  working : BitVec 64
  waiting : BitVec 64
  decoding : Slot → DecodingJob

structure DecodingQueue where
  mutexHeld : Bool
  errorMessages : ErrorMessages
  queue : Queue

structure Apr where
  strnatcmp : CString → CString → ℤ
  strerror : ℤ → CString

/-- The state written for a new queue over shared memory with the jobs `decoding` in it. -/
def createDecodingQueue (errorMessages : ErrorMessages) (decoding : Slot → DecodingJob) :
    DecodingQueue where
  mutexHeld := false
  errorMessages := errorMessages
  queue := ⟨0, -1, 0#64, 0#64, decoding⟩

def slotOf (index : ℤ) : Except QueueFault Slot :=
  if h : 0 ≤ index ∧ index < 64 then .ok ⟨index.toNat, by omega⟩
  else .error (.slotOutOfRange index)

namespace Queue

variable (q : Queue)

def used : BitVec 64 := q.waiting ||| q.working

def setJob (i : Slot) (job : DecodingJob) : Queue :=
  { q with decoding := Function.update q.decoding i job }

/-- The updates of `get_decoding_job_queue` for the slot at the head. -/
def take (i : Slot) : Queue where
  head := (q.decoding i).next
  tail := q.tail
  working := q.working ||| flag i
  waiting := q.waiting &&& ~~~flag i
  decoding := q.decoding

def place (i : Slot) (job : DecodingJob) : Queue where
  head := if q.waiting = 0#64 then i else q.head
  tail := q.tail
  working := q.working
  waiting := q.waiting ||| flag i
  decoding := Function.update q.decoding i { job with index := i, next := -1 }

/-- The old tail, if there is one, is linked to the slot, and the slot becomes the tail. -/
def link (i : Slot) : Except QueueFault Queue := do
  let q ← if 0 ≤ q.tail then do
      let tail ← slotOf q.tail
      pure (q.setJob tail { q.decoding tail with next := i })
    else pure q
  return { q with tail := i }

def setStatus (i : Slot) (text : CString) : Queue :=
  q.setJob i { q.decoding i with status := text.cpystrn (q.decoding i).status 512 }

end Queue

namespace DecodingQueue

variable (d : DecodingQueue)

def lock : Except QueueFault DecodingQueue :=
  if d.mutexHeld then .error .blocked else .ok { d with mutexHeld := true }

def unlock : DecodingQueue := { d with mutexHeld := false }

def addError (call : ErrorCall) : DecodingQueue :=
  { d with errorMessages := (errorMessagesAdd d.errorMessages call).2 }

end DecodingQueue

def headError : ErrorCall where
  type := .error
  header := CString.ofAscii "Errroroororor"
  message := CString.ofAscii "head is less than 0"

def fullError : ErrorCall where
  type := .error
  header := CString.ofAscii "Error adding to queue"
  message := CString.ofAscii "Queue is FULL!"

def bothSetError (apr : Apr) : ErrorCall where
  type := .error
  header := CString.ofAscii "Working and waiting are set WTF MAN"
  message := apr.strerror 0

def duplicateError : ErrorCall where
  type := .error
  header := CString.ofAscii "Error found duplicate"
  message := CString.ofAscii "found duplicate in working/waiting queue"

/-- The slot of the job returned, or `none` for NULL, and the queue after the call. -/
def getDecodingJobQueue (d : DecodingQueue) :
    Except QueueFault (Option Slot × DecodingQueue) := do
  let d ← d.lock
  if d.queue.waiting ≠ 0#64 then
    let d := if d.queue.head < 0 ∨ 63 < d.queue.head then d.addError headError else d
    let index ← slotOf d.queue.head
    let d := { d with queue := d.queue.take index }
    return (some index, d.unlock)
  else return (none, d.unlock)

/-- The status and the queue after the call. -/
def addDecodingJobQueue (job : DecodingJob) (d : DecodingQueue) :
    Except QueueFault (ℤ × DecodingQueue) := do
  let d ← d.lock
  let free := ~~~d.queue.used
  if h : free = 0#64 then return (-1, d.addError fullError)
  else
    let emptyIndex := first free h
    let queue ← (d.queue.place emptyIndex job).link emptyIndex
    return (0, { d with queue := queue }.unlock)

/-- A pointer to a job: a caller's own, or a slot of the queue. -/
inductive JobRef
  | own (job : DecodingJob)
  | slot (i : Slot)

def Queue.deref (q : Queue) : JobRef → DecodingJob
  | .own job => job
  | .slot i => q.decoding i

def sameTarget (apr : Apr) (a b : DecodingJob) : Bool :=
  apr.strnatcmp (.ofBytes a.sourceId.toList) (.ofBytes b.sourceId.toList) == 0 &&
    apr.strnatcmp (.ofBytes a.outputFileType.toList) (.ofBytes b.outputFileType.toList) == 0

def workingStatus (i : Slot) : CString :=
  CString.ofAscii ("Decoding index: " ++ toString i.val ++ " Working on")

/-- The loop of `does_decoding_job_exsits` over the slots left in `hasJob`. -/
def findJob (apr : Apr) (hasJob : BitVec 64) (found : ℤ) (decJob : JobRef) (q : Queue) :
    ℤ × JobRef × Queue :=
  if h : hasJob = 0#64 then (found, decJob, q)
  else
    let i := first hasJob h
    if sameTarget apr (q.decoding i) (q.deref decJob) then
      findJob apr (hasJob &&& ~~~flag i) (found + 1) (.slot i) (q.setStatus i (workingStatus i))
    else findJob apr (hasJob &&& ~~~flag i) found decJob q
termination_by hasJob.toNat
decreasing_by all_goals exact toNat_erase_lt (has_first h)

/-- The number of jobs found, `*dec_job` and the queue after the call. -/
def doesDecodingJobExsits (apr : Apr) (d : DecodingQueue) (decJob : Option JobRef) :
    Except QueueFault (ℤ × Option JobRef × DecodingQueue) :=
  match decJob with
  | none => return (0, none, d)
  | some decJob => do
      let d ← d.lock
      let d := if d.queue.waiting &&& d.queue.working ≠ 0#64 then d.addError (bothSetError apr)
        else d
      let (found, decJob, queue) := findJob apr d.queue.used 0 decJob d.queue
      let d := { d with queue := queue }
      let d := if found > 1 then d.addError duplicateError else d
      return (found, some decJob, d.unlock)

/-- A worker locks the queue, clears the working bit of its slot and unlocks the queue. -/
def releaseSlot (d : DecodingQueue) (i : Slot) : Except QueueFault DecodingQueue := do
  let d ← d.lock
  let d := { d with queue := { d.queue with working := d.queue.working &&& ~~~flag i } }
  return d.unlock

end ModMp
