import ModMp.ErrorMessages

/-!
# The errors of a table as a log

A table starts with what it has and takes one call after the other, as long as there is room: its
records are those from before and those of the calls, up to the 1024th.
-/

namespace ModMp

theorem take_take_append {α : Type} (l r : List α) (n : ℕ) :
    (l.take n ++ r).take n = (l ++ r).take n := by
  rw [List.take_append, List.take_append, List.take_take, Nat.min_self, List.length_take]
  congr 2
  omega

theorem records_errorMessagesAdd {t : ErrorMessages} (h : t.numErrors ≤ maxErrors)
    (call : ErrorCall) :
    (errorMessagesAdd t call).2.records = (t.records ++ [call.record]).take maxErrors ∧
      (errorMessagesAdd t call).2.numErrors ≤ maxErrors := by
  have hlength : t.records.length = t.numErrors := by
    rw [ErrorMessages.records, List.length_map, List.length_range]
  by_cases hfull : t.Full
  · have heq : t.records.length = maxErrors := hlength.trans (le_antisymm h hfull)
    rw [errorMessagesAdd_of_full hfull, List.take_append_of_le_length heq.ge, ← heq,
      List.take_length, heq]
    exact ⟨rfl, h⟩
  · obtain ⟨-, hnum, hmessages⟩ := errorMessagesAdd_of_not_full hfull call
    have hlt : t.numErrors < maxErrors := Nat.lt_of_not_le hfull
    refine ⟨?_, hnum ▸ hlt⟩
    rw [List.take_of_length_le (by rw [List.length_append, hlength]; exact hlt),
      ErrorMessages.records, hnum, hmessages, List.range_succ, List.map_append, List.map_singleton,
      Function.update_self, ErrorMessages.records]
    congr 1
    apply List.map_congr_left
    intro i hi
    exact Function.update_of_ne (List.mem_range.mp hi).ne _ _

def addErrors (t : ErrorMessages) (calls : List ErrorCall) : ErrorMessages :=
  calls.foldl (fun t call => (errorMessagesAdd t call).2) t

theorem addErrors_append (t : ErrorMessages) (calls more : List ErrorCall) :
    addErrors t (calls ++ more) = addErrors (addErrors t calls) more := List.foldl_append

end ModMp
