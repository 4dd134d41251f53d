import ModMp.ErrorMessages

/-!
# The connection list and the queries that take from it

`dbConfigGetConnection` takes the connection at the head of a linked list. `dbQueryRun` takes one
for each query, locks it and unlocks it again, and returns without giving it back. Nodes and
connections are named by numbers. A call takes the outcome of `apr_pcalloc` as an argument, and has
no result when it blocks on a locked connection.
-/

namespace ModMp
open CLib

structure DbConnNode where
  dbConn : ℕ
  next : Option ℕ
  deriving DecidableEq

structure DbConfig where
  nodes : ℕ → DbConnNode
  head : Option ℕ
  locked : ℕ → Bool
  errorMessages : ErrorMessages

/-- The status, the connection left in `*db_conn`, and the configuration after the call. -/
def dbConfigGetConnection (c : DbConfig) : ℤ × Option ℕ × DbConfig :=
  match c.head with
  | some node => (0, some (c.nodes node).dbConn, { c with head := (c.nodes node).next })
  | none => (-1, none, c)

def DbConfig.lock (c : DbConfig) (dbConn : ℕ) : Option DbConfig :=
  if c.locked dbConn then none
  else some { c with locked := Function.update c.locked dbConn true }

def DbConfig.unlock (c : DbConfig) (dbConn : ℕ) : DbConfig :=
  { c with locked := Function.update c.locked dbConn false }

def noConnectionError : ErrorCall where
  type := .error
  header := CString.ofAscii "Database Query"
  message := CString.ofAscii "Failed to get connection"

/-- The status and the configuration after the call. -/
def dbQueryRun (allocated : Bool) (c : DbConfig) : Option (ℤ × DbConfig) :=
  if allocated then
    let (status, dbConn, c) := dbConfigGetConnection c
    if status ≠ 0 then
      some (-90, { c with errorMessages := (errorMessagesAdd c.errorMessages noConnectionError).2 })
    else do
      let dbConn ← dbConn
      let c ← c.lock dbConn
      return (0, c.unlock dbConn)
  else some (-1, c)

/-- The nodes on the way from `head` to the end of the list. -/
def Linked (nodes : ℕ → DbConnNode) : Option ℕ → List ℕ → Prop
  | head, [] => head = none
  | head, node :: l => head = some node ∧ Linked nodes (nodes node).next l

/-- A list of distinct connections that no query holds. -/
structure WellFormed (c : DbConfig) (l : List ℕ) : Prop where
  linked : Linked c.nodes c.head l
  distinct : (l.map (fun node => (c.nodes node).dbConn)).Nodup
  unlocked : ∀ node ∈ l, c.locked (c.nodes node).dbConn = false

/-- The connections that calls of `dbConfigGetConnection` can still hand out. -/
def available (c : DbConfig) : Set ℕ :=
  {dbConn | ∃ n, (dbConfigGetConnection ((fun c => (dbConfigGetConnection c).2.2)^[n] c)).2.1 =
    some dbConn}

/-- No call of the sequence changes the connections that can be handed out or fails with -90. -/
def PoolKept : DbConfig → List Bool → Prop
  | _, [] => True
  | c, allocated :: calls => ∀ status c', dbQueryRun allocated c = some (status, c') →
      available c' = available c ∧ status ≠ -90 ∧ PoolKept c' calls

theorem getConnection_of_head {c : DbConfig} {node : ℕ} (h : c.head = some node) :
    dbConfigGetConnection c =
      (0, some (c.nodes node).dbConn, { c with head := (c.nodes node).next }) := by
  rw [dbConfigGetConnection, h]

theorem getConnection_of_empty {c : DbConfig} (h : c.head = none) :
    dbConfigGetConnection c = (-1, none, c) := by
  rw [dbConfigGetConnection, h]

theorem mem_available_of_head {c : DbConfig} {node : ℕ} (h : c.head = some node) (dbConn : ℕ) :
    dbConn ∈ available c ↔ dbConn = (c.nodes node).dbConn ∨
      dbConn ∈ available { c with head := (c.nodes node).next } := by
  constructor
  · rintro ⟨n, hn⟩
    cases n with
    | zero =>
        rw [Function.iterate_zero, id_eq, getConnection_of_head h] at hn
        exact .inl (Option.some.inj hn).symm
    | succ n =>
        rw [Function.iterate_succ_apply, getConnection_of_head h] at hn
        exact .inr ⟨n, hn⟩
  · rintro (rfl | ⟨n, hn⟩)
    · exact ⟨0, by rw [Function.iterate_zero, id_eq, getConnection_of_head h]⟩
    · exact ⟨n + 1, by rw [Function.iterate_succ_apply, getConnection_of_head h]; exact hn⟩

theorem available_of_empty {c : DbConfig} (h : c.head = none) : available c = ∅ := by
  apply Set.eq_empty_iff_forall_notMem.mpr
  intro dbConn hmem
  obtain ⟨n, hn⟩ := hmem
  have hfix : (fun c => (dbConfigGetConnection c).2.2)^[n] c = c :=
    Function.iterate_fixed (by rw [getConnection_of_empty h]) n
  rw [hfix, getConnection_of_empty h] at hn
  cases hn

theorem mem_available_iff {c : DbConfig} {l : List ℕ} (h : Linked c.nodes c.head l) (dbConn : ℕ) :
    dbConn ∈ available c ↔ dbConn ∈ l.map (fun node => (c.nodes node).dbConn) := by
  induction l generalizing c with
  | nil =>
      rw [available_of_empty h]
      simp
  | cons node l ih =>
      rw [mem_available_of_head h.1, List.map_cons, List.mem_cons,
        ih (c := { c with head := (c.nodes node).next }) h.2]

theorem dbQueryRun_cons {c : DbConfig} {node : ℕ} {l : List ℕ} (h : WellFormed c (node :: l)) :
    ∃ c', dbQueryRun true c = some (0, c') ∧ c'.nodes = c.nodes ∧ WellFormed c' l := by
  obtain ⟨⟨hhead, hlinked⟩, hdistinct, hunlocked⟩ := h
  have hfree : c.locked (c.nodes node).dbConn = false := hunlocked node List.mem_cons_self
  refine ⟨DbConfig.unlock { c with
    head := (c.nodes node).next
    locked := Function.update c.locked (c.nodes node).dbConn true } (c.nodes node).dbConn,
    ?_, rfl, hlinked, (List.nodup_cons.mp hdistinct).2, fun other hother => ?_⟩
  · unfold dbQueryRun
    rw [if_pos rfl, getConnection_of_head hhead]
    dsimp only
    have hlock : ({ c with head := (c.nodes node).next } : DbConfig).lock (c.nodes node).dbConn =
        some { c with
          head := (c.nodes node).next
          locked := Function.update c.locked (c.nodes node).dbConn true } :=
      if_neg (by simp [hfree])
    rw [if_neg (by decide), Option.bind_eq_bind, Option.bind_some, Option.bind_eq_bind, hlock]
    rfl
  · have hne : (c.nodes other).dbConn ≠ (c.nodes node).dbConn := by
      intro heq
      exact (List.nodup_cons.mp hdistinct).1 (List.mem_map.mpr ⟨other, hother, heq⟩)
    dsimp only [DbConfig.unlock]
    rw [Function.update_of_ne hne, Function.update_of_ne hne]
    exact hunlocked other (List.mem_cons_of_mem node hother)

theorem dbQueryRun_empty {c : DbConfig} (h : c.head = none) :
    ∃ c', dbQueryRun true c = some (-90, c') := by
  unfold dbQueryRun
  rw [if_pos rfl, getConnection_of_empty h]
  exact ⟨_, rfl⟩

/-- The configuration after `k` queries that all succeed. -/
def Succeeds : ℕ → DbConfig → DbConfig → Prop
  | 0, c, c' => c' = c
  | k + 1, c, c' => ∃ d, dbQueryRun true c = some (0, d) ∧ Succeeds k d c'

/-- As many queries succeed as the list has connections, and the next one fails. -/
theorem drained_after_length {c : DbConfig} {l : List ℕ} (h : WellFormed c l) :
    ∃ c' c'', Succeeds l.length c c' ∧ dbQueryRun true c' = some (-90, c'') := by
  induction l generalizing c with
  | nil =>
      obtain ⟨c'', hc''⟩ := dbQueryRun_empty h.linked
      exact ⟨c, c'', rfl, hc''⟩
  | cons node l ih =>
      obtain ⟨d, hd, -, hwell⟩ := dbQueryRun_cons h
      obtain ⟨c', c'', hc', hc''⟩ := ih hwell
      exact ⟨c', c'', ⟨d, hd, hc'⟩, hc''⟩

theorem not_poolKept_of_allocated {c : DbConfig} {node : ℕ} {l : List ℕ} (calls : List Bool)
    (h : WellFormed c (node :: l)) : ¬ PoolKept c (true :: calls) := by
  intro hkept
  obtain ⟨c', hc', hnodes, hwell⟩ := dbQueryRun_cons h
  have hsame := (hkept 0 c' hc').1
  have hmem : (c.nodes node).dbConn ∈ available c :=
    (mem_available_iff h.linked _).mpr List.mem_cons_self
  rw [← hsame, mem_available_iff hwell.linked, hnodes] at hmem
  exact (List.nodup_cons.mp h.distinct).1 hmem

/-- On a well-formed list with a connection the pool is kept exactly by the sequences in which no
call gets past its allocation. -/
theorem poolKept_iff {c : DbConfig} {l : List ℕ} (h : WellFormed c l) (hl : l ≠ [])
    (calls : List Bool) : PoolKept c calls ↔ ∀ allocated ∈ calls, allocated = false := by
  obtain ⟨node, l, rfl⟩ := List.exists_cons_of_ne_nil hl
  induction calls with
  | nil => exact ⟨fun _ _ hmem => absurd hmem List.not_mem_nil, fun _ => trivial⟩
  | cons allocated calls ih =>
      cases allocated with
      | true =>
          apply iff_of_false (not_poolKept_of_allocated calls h)
          intro hall
          exact absurd (hall true List.mem_cons_self) (by decide)
      | false =>
          rw [List.forall_mem_cons, and_iff_right rfl, ← ih]
          constructor
          · intro hkept
            exact (hkept (-1) c rfl).2.2
          · intro hkept status c' hrun
            cases hrun
            exact ⟨rfl, by decide, hkept⟩

def oneConnection : DbConfig where
  nodes _ := ⟨7, none⟩
  head := some 0
  locked _ := false
  errorMessages := ⟨0, fun _ => noConnectionError.record⟩

theorem wellFormed_oneConnection : WellFormed oneConnection [0] :=
  ⟨⟨rfl, rfl⟩, by decide, by decide⟩

/-- The second query on one connection fails with -90. -/
theorem oneConnection_drained : ¬ PoolKept oneConnection [true, true] ∧
    ∃ c c', dbQueryRun true oneConnection = some (0, c) ∧ dbQueryRun true c = some (-90, c') := by
  refine ⟨not_poolKept_of_allocated [true] wellFormed_oneConnection, ?_⟩
  obtain ⟨c, c', ⟨d, hd, rfl⟩, hc'⟩ := drained_after_length wellFormed_oneConnection
  exact ⟨c, c', hd, hc'⟩

theorem poolKept_oneConnection : PoolKept oneConnection [false, false] :=
  (poolKept_iff wellFormed_oneConnection (by decide) [false, false]).mpr (by decide)

end ModMp
