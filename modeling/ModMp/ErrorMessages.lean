import ModMp.CString

/-!
# The error table

An error table holds 1024 records and the number of records in use. Its `messages` are indexed by
all numbers, so that a write past the last record is a write at its index, and not lost. A text is
read from its array up to the first NUL.
`errorMessagesAdd` is composed of the accesses to the table that the source makes one after the
other: the bound check, the atomic increment, and one write for each field.
-/

namespace ModMp
open CLib

def maxErrors : ℕ := 1024

def maxErrorSize : ℕ := 1024

inductive ErrorType
  | error
  | debug
  | warn
  deriving DecidableEq

structure ErrorMessage where
  type : ErrorType
  header : List.Vector UInt8 maxErrorSize
  message : List.Vector UInt8 maxErrorSize
  deriving DecidableEq

namespace ErrorMessage

variable (m : ErrorMessage)

def headerText : CString := .ofBytes m.header.toList

def messageText : CString := .ofBytes m.message.toList

end ErrorMessage

structure ErrorMessages where
  numErrors : ℕ
  messages : ℕ → ErrorMessage

def ErrorMessages.records (t : ErrorMessages) : List ErrorMessage :=
  (List.range t.numErrors).map t.messages

structure ErrorCall where
  type : ErrorType
  header : CString
  message : CString

def ErrorCall.record (call : ErrorCall) : ErrorMessage where
  type := call.type
  header := call.header.strncpy maxErrorSize
  message := call.message.strncpy maxErrorSize

namespace ErrorMessages

variable (t : ErrorMessages)

def Full : Prop := maxErrors ≤ t.numErrors

instance : Decidable t.Full := inferInstanceAs (Decidable (_ ≤ _))

/-- `__sync_fetch_and_add(&num_errors, 1)`: the value before, and the table after. -/
def fetchAndAdd : ℕ × ErrorMessages := (t.numErrors, { t with numErrors := t.numErrors + 1 })

def update (i : ℕ) (f : ErrorMessage → ErrorMessage) : ErrorMessages where
  numErrors := t.numErrors
  messages := Function.update t.messages i (f (t.messages i))

def writeType (i : ℕ) (call : ErrorCall) : ErrorMessages :=
  t.update i (fun m => { m with type := call.type })

def writeHeader (i : ℕ) (call : ErrorCall) : ErrorMessages :=
  t.update i (fun m => { m with header := call.header.strncpy maxErrorSize })

def writeMessage (i : ℕ) (call : ErrorCall) : ErrorMessages :=
  t.update i (fun m => { m with message := call.message.strncpy maxErrorSize })

@[simp] theorem update_messages_self (i : ℕ) (f : ErrorMessage → ErrorMessage) :
    (t.update i f).messages i = f (t.messages i) := Function.update_self _ _ _

theorem update_messages_of_ne {i j : ℕ} (h : j ≠ i) (f : ErrorMessage → ErrorMessage) :
    (t.update i f).messages j = t.messages j := Function.update_of_ne h _ _

/-- The three writes together put the whole record into the slot. -/
theorem writeMessage_writeHeader_writeType (i : ℕ) (call : ErrorCall) :
    (((t.writeType i call).writeHeader i call).writeMessage i call).messages =
      Function.update t.messages i call.record := by
  funext j
  by_cases hj : j = i
  · subst hj
    simp [writeMessage, writeHeader, writeType, ErrorCall.record]
  · simp [writeMessage, writeHeader, writeType, update_messages_of_ne, hj]

end ErrorMessages

/-- The status and the table after the call. -/
def errorMessagesAdd (t : ErrorMessages) (call : ErrorCall) : ℤ × ErrorMessages :=
  if t.Full then (-1, t)
  else
    let (errorNum, t) := t.fetchAndAdd
    let t := t.writeType errorNum call
    let t := t.writeHeader errorNum call
    let t := t.writeMessage errorNum call
    (0, t)

theorem errorMessagesAdd_of_not_full {t : ErrorMessages} (h : ¬ t.Full) (call : ErrorCall) :
    (errorMessagesAdd t call).1 = 0 ∧
      (errorMessagesAdd t call).2.numErrors = t.numErrors + 1 ∧
      (errorMessagesAdd t call).2.messages =
        Function.update t.messages t.numErrors call.record := by
  unfold errorMessagesAdd
  rw [if_neg h]
  exact ⟨rfl, rfl, t.fetchAndAdd.2.writeMessage_writeHeader_writeType t.numErrors call⟩

theorem errorMessagesAdd_of_full {t : ErrorMessages} (h : t.Full) (call : ErrorCall) :
    errorMessagesAdd t call = (-1, t) := if_pos h

end ModMp
