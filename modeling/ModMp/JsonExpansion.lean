import ModMp.JsonReader

/-!
# Given strings written out

A text with given strings becomes a text of bytes when each of them is written out. The lexer and
the reader make of the bytes what they make of the text, with the given strings written out in it,
as long as each of these can stand between quotes. An escaped string can exactly when it has no
control byte; with one, the lexer stops at the first of them.
-/

namespace JsonText
open CLib JsonString

variable {τ : Type}

def Sym.expand (written : τ → Bytes) : Sym τ → Text Empty
  | .byte b => [.byte b]
  | .given t => (written t).map .byte

/-- The text with every given string written out. -/
def expand (written : τ → Bytes) (text : Text τ) : Text Empty := text.flatMap (Sym.expand written)

def Token.expand (written : τ → Bytes) : Token τ → Token Empty
  | .beginObject => .beginObject
  | .endObject => .endObject
  | .beginArray => .beginArray
  | .endArray => .endArray
  | .nameSeparator => .nameSeparator
  | .valueSeparator => .valueSeparator
  | .string body => .string (JsonText.expand written body)
  | .number digits => .number digits
  | .word letters => .word letters

def LexState.expand (written : τ → Bytes) : LexState τ → LexState Empty
  | .between => .between
  | .string body => .string (JsonText.expand written body)
  | .escape body => .escape (JsonText.expand written body)
  | .hex body n => .hex (JsonText.expand written body) n
  | .number digits => .number digits
  | .word letters => .word letters

/-- Bytes that are read as they are between quotes. -/
def IsContent (bytes : Bytes) : Prop :=
  ∀ body : Text Empty, lexRun (.string body) (bytes.map .byte) =
    some ([], .string (body ++ bytes.map .byte))

/-- Bytes that the lexer stops at between quotes. -/
def IsBlocked (bytes : Bytes) : Prop :=
  ∀ body : Text Empty, lexRun (.string body) (bytes.map .byte) = none

theorem IsContent.not_blocked {bytes : Bytes} (h : IsContent bytes) : ¬ IsBlocked bytes :=
  fun hblocked => Option.some_ne_none _ ((h []).symm.trans (hblocked []))

theorem lexRun_bytes_append (state : LexState Empty) (u v : Bytes) :
    lexRun state ((u ++ v).map .byte) = (lexRun state (u.map .byte)).bind
      (fun r => (lexRun r.2 (v.map .byte)).map (fun q => (r.1 ++ q.1, q.2))) := by
  rw [List.map_append, lexRun_append]

theorem lexRun_escapeByte (b : UInt8) (body : Text Empty) :
    lexRun (.string body) ((escapeByte b).map .byte) =
      if b < 0x20 then none else some ([], .string (body ++ (escapeByte b).map .byte)) := by
  have hescape : ∀ c, shortEscape c = some c → c ≠ 0x75 → ¬ c < 0x20 →
      lexRun (.string body) ([backslash, c].map .byte) =
        if c < 0x20 then none else some ([], .string (body ++ [backslash, c].map .byte)) := by
    intro c hc hunicode hcontrol
    have hstep : lexStep (.escape (body ++ [.byte backslash])) (.byte c) =
        some ([], .string (body ++ [.byte backslash] ++ [.byte c])) :=
      (if_neg hunicode).trans (if_pos (by rw [hc]; rfl))
    rw [if_neg hcontrol]
    change (lexRun (.escape (body ++ [.byte backslash])) [.byte c]).map _ = _
    rw [lexRun, hstep, List.append_assoc]
    rfl
  by_cases hquote : b = quote
  · rw [hquote]
    exact hescape quote rfl (by decide) (by decide)
  by_cases hback : b = backslash
  · rw [hback]
    exact hescape backslash rfl (by decide) (by decide)
  have hstep : lexStep (.string body) (.byte b) =
      if b < 0x20 then none else some ([], .string (body ++ [.byte b])) :=
    (if_neg hquote).trans (if_neg hback)
  rw [escapeByte, if_neg hquote, if_neg hback, List.map_singleton, lexRun, hstep]
  split_ifs <;> rfl

theorem isContent_escape {bytes : Bytes} (h : ∀ b ∈ bytes, 0x20 ≤ b) :
    IsContent (escape bytes) := by
  rw [escape_eq_flatMap]
  induction bytes with
  | nil =>
      intro body
      rw [List.flatMap_nil, List.map_nil, List.append_nil]
      rfl
  | cons b bytes ih =>
      intro body
      have hb : ¬ b < 0x20 := UInt8.not_lt.mpr (h b List.mem_cons_self)
      rw [List.flatMap_cons, lexRun_bytes_append, lexRun_escapeByte, if_neg hb, Option.bind_some,
        ih (fun c hc => h c (List.mem_cons_of_mem b hc)), List.map_append, List.append_assoc]
      rfl

theorem isBlocked_escape {bytes : Bytes} {b : UInt8} (hmem : b ∈ bytes) (hb : b < 0x20) :
    IsBlocked (escape bytes) := by
  rw [escape_eq_flatMap]
  induction bytes with
  | nil => exact absurd hmem List.not_mem_nil
  | cons c bytes ih =>
      intro body
      rw [List.flatMap_cons, lexRun_bytes_append, lexRun_escapeByte]
      split_ifs with hc
      · rfl
      · rcases List.mem_cons.mp hmem with rfl | hmem
        · exact absurd hb hc
        · rw [Option.bind_some, ih hmem]
          rfl

theorem isContent_or_isBlocked_escape (bytes : Bytes) :
    IsContent (escape bytes) ∨ IsBlocked (escape bytes) := by
  by_cases h : ∀ b ∈ bytes, 0x20 ≤ b
  · exact .inl (isContent_escape h)
  · push Not at h
    obtain ⟨b, hmem, hb⟩ := h
    exact .inr (isBlocked_escape hmem (UInt8.not_le.mp hb))

theorem isContent_escape_iff {bytes : Bytes} :
    IsContent (escape bytes) ↔ ∀ b ∈ bytes, 0x20 ≤ b := by
  constructor
  · intro hcontent b hmem
    by_contra hb
    exact hcontent.not_blocked (isBlocked_escape hmem (UInt8.not_le.mp hb))
  · exact isContent_escape

section Lexer

variable (written : τ → Bytes)

/-- What the lexer has read, with the given strings written out. -/
def expandRead (r : List (Token τ) × LexState τ) : List (Token Empty) × LexState Empty :=
  (r.1.map (Token.expand written), r.2.expand written)

theorem expand_append (text rest : Text τ) :
    expand written (text ++ rest) = expand written text ++ expand written rest :=
  List.flatMap_append

theorem expand_snoc_byte (body : Text τ) (b : UInt8) :
    expand written (body ++ [.byte b]) = expand written body ++ [.byte b] :=
  expand_append written body [.byte b]

theorem expand_snoc_given (body : Text τ) (t : τ) :
    expand written (body ++ [.given t]) = expand written body ++ (written t).map .byte :=
  (expand_append written body [.given t]).trans
    (congrArg (expand written body ++ ·) (List.append_nil _))

theorem lexBegin_expand (b : UInt8) :
    lexBegin b = (lexBegin b).map (expandRead written) := by
  simp only [lexBegin, apply_ite (Option.map (expandRead written))]
  rfl

theorem lexBeginAfter_expand (t : Token τ) (b : UInt8) :
    lexBeginAfter (t.expand written) b = (lexBeginAfter t b).map (expandRead written) := by
  rw [lexBeginAfter, lexBeginAfter, lexBegin_expand written, Option.map_map, Option.map_map]
  rfl

theorem lexStep_expand (state : LexState τ) (b : UInt8) :
    lexStep (state.expand written) (.byte b) =
      (lexStep state (.byte b)).map (expandRead written) := by
  cases state with
  | between => exact lexBegin_expand written b
  | string body =>
      rw [LexState.expand, lexStep, lexStep, ← expand_snoc_byte]
      split_ifs <;> rfl
  | escape body =>
      rw [LexState.expand, lexStep, lexStep, ← expand_snoc_byte]
      split_ifs <;> rfl
  | hex body n =>
      rw [LexState.expand, lexStep, lexStep, ← expand_snoc_byte]
      split_ifs <;> rfl
  | number digits =>
      rw [LexState.expand, lexStep, lexStep, ← Token.expand, lexBeginAfter_expand]
      split_ifs <;> rfl
  | word letters =>
      rw [LexState.expand, lexStep, lexStep, ← Token.expand, lexBeginAfter_expand]
      split_ifs <;> rfl

theorem lexStep_given {state : LexState τ} {t : τ} {r : List (Token τ) × LexState τ}
    (h : lexStep state (.given t) = some r) :
    ∃ body, state = .string body ∧ r = ([], .string (body ++ [.given t])) := by
  cases state with
  | string body => exact ⟨body, rfl, (Option.some.inj h).symm⟩
  | between | escape | hex | number | word => cases h

variable {written}

theorem lexRun_expand {text : Text τ} (hcontent : ∀ t, .given t ∈ text → IsContent (written t))
    {state : LexState τ} {r : List (Token τ) × LexState τ} (h : lexRun state text = some r) :
    lexRun (state.expand written) (expand written text) = some (expandRead written r) := by
  induction text generalizing state r with
  | nil =>
      cases h
      rfl
  | cons c text ih =>
      obtain ⟨q, hstep, hrest⟩ := Option.bind_eq_some_iff.mp h
      obtain ⟨r, hrun, rfl⟩ := Option.map_eq_some_iff.mp hrest
      have hread := ih (fun t ht => hcontent t (List.mem_cons_of_mem c ht)) hrun
      cases c with
      | byte b =>
          change lexRun _ (.byte b :: expand written text) = _
          rw [lexRun, lexStep_expand, hstep]
          change (lexRun (q.2.expand written) _).map _ = _
          rw [hread, Option.map_some, expandRead, expandRead, expandRead, List.map_append]
      | given t =>
          obtain ⟨body, rfl, rfl⟩ := lexStep_given hstep
          change lexRun (.string (expand written body))
            ((written t).map .byte ++ expand written text) = _
          rw [lexRun_append, hcontent t List.mem_cons_self, Option.bind_some,
            ← expand_snoc_given]
          change (lexRun (.string (expand written (body ++ [.given t]))) _).map _ = _
          exact (congrArg _ hread).trans rfl

theorem lexRun_expand_none {text : Text τ} {t : τ} (hmem : .given t ∈ text)
    (hblocked : IsBlocked (written t))
    (hsplit : ∀ t, .given t ∈ text → IsContent (written t) ∨ IsBlocked (written t))
    {state : LexState τ} {r : List (Token τ) × LexState τ} (h : lexRun state text = some r) :
    lexRun (state.expand written) (expand written text) = none := by
  induction text generalizing state r with
  | nil => exact absurd hmem List.not_mem_nil
  | cons c text ih =>
      obtain ⟨q, hstep, hrest⟩ := Option.bind_eq_some_iff.mp h
      obtain ⟨r, hrun, rfl⟩ := Option.map_eq_some_iff.mp hrest
      have htail : .given t ∈ text →
          lexRun (q.2.expand written) (expand written text) = none :=
        fun hmem => ih hmem (fun t ht => hsplit t (List.mem_cons_of_mem c ht)) hrun
      cases c with
      | byte b =>
          rcases List.mem_cons.mp hmem with hmem | hmem
          · cases hmem
          change lexRun _ (.byte b :: expand written text) = _
          rw [lexRun, lexStep_expand, hstep]
          change (lexRun (q.2.expand written) _).map _ = _
          rw [htail hmem, Option.map_none]
      | given t' =>
          obtain ⟨body, rfl, rfl⟩ := lexStep_given hstep
          change lexRun (.string (expand written body))
            ((written t').map .byte ++ expand written text) = _
          rw [lexRun_append]
          rcases hsplit t' List.mem_cons_self with hcontent | hblocked'
          · rcases List.mem_cons.mp hmem with hmem | hmem
            · cases hmem
              exact absurd hblocked hcontent.not_blocked
            rw [hcontent, Option.bind_some, ← expand_snoc_given]
            change (lexRun (.string (expand written (body ++ [.given t']))) _).map _ = _
            exact (congrArg _ (htail hmem)).trans rfl
          · rw [hblocked', Option.bind_none]

end Lexer

section Reader

variable (written : τ → Bytes)

mutual

/-- The value with every given string written out. -/
def Value.expand : Value τ → Value Empty
  | .null => .null
  | .bool b => .bool b
  | .number digits => .number digits
  | .string body => .string (JsonText.expand written body)
  | .array items => .array (expandItems items)
  | .object fields => .object (expandFields fields)

def expandItems : List (Value τ) → List (Value Empty)
  | [] => []
  | v :: items => v.expand :: expandItems items

def expandFields : List (Text τ × Value τ) → List (Text Empty × Value Empty)
  | [] => []
  | (name, v) :: fields => (JsonText.expand written name, v.expand) :: expandFields fields

end

theorem expandItems_eq (items : List (Value τ)) :
    expandItems written items = items.map (Value.expand written) := by
  induction items with
  | nil => rw [expandItems, List.map_nil]
  | cons v items ih => rw [expandItems, ih, List.map_cons]

def expandField (f : Text τ × Value τ) : Text Empty × Value Empty :=
  (JsonText.expand written f.1, f.2.expand written)

theorem expandFields_eq (fields : List (Text τ × Value τ)) :
    expandFields written fields = fields.map (expandField written) := by
  induction fields with
  | nil => rw [expandFields, List.map_nil]
  | cons f fields ih => rw [expandFields, ih, List.map_cons, expandField]

def Partial.expand : Partial τ → Partial Empty
  | .array items => .array (items.map (Value.expand written))
  | .object fields => .object (fields.map (expandField written))

def Frame.expand : Frame τ → Frame Empty
  | .array items => .array (items.map (Value.expand written))
  | .object fields name =>
      .object (fields.map (expandField written)) (JsonText.expand written name)

def ReadState.expand : ReadState τ → ReadState Empty
  | .value stack => .value (stack.map (Frame.expand written))
  | .name fields stack =>
      .name (fields.map (expandField written)) (stack.map (Frame.expand written))
  | .nameSeparator fields body stack =>
      .nameSeparator (fields.map (expandField written)) (JsonText.expand written body)
        (stack.map (Frame.expand written))
  | .item p stack => .item (p.expand written) (stack.map (Frame.expand written))
  | .done v => .done (v.expand written)

theorem complete_expand (v : Value τ) (stack : List (Frame τ)) :
    complete (v.expand written) (stack.map (Frame.expand written)) =
      (complete v stack).expand written := by
  cases stack with
  | nil => rfl
  | cons frame stack =>
      cases frame with
      | array items =>
          rw [complete, ReadState.expand, Frame.add, Partial.expand, List.map_append]
          rfl
      | object fields name =>
          rw [complete, ReadState.expand, Frame.add, Partial.expand, List.map_append]
          rfl

theorem wordValue_expand (letters : Bytes) :
    wordValue letters = (wordValue letters).map (Value.expand written) := by
  simp only [wordValue, apply_ite (Option.map (Value.expand written)), Option.map_some,
    Option.map_none, Value.expand]

/-- What the reader does with a token does not depend on what is written out. -/
theorem readStep_expand (state : ReadState τ) (t : Token τ) :
    readStep (state.expand written) (t.expand written) =
      (readStep state t).map (ReadState.expand written) := by
  cases state with
  | value stack =>
      cases t with
      | string body => exact congrArg some (complete_expand written (.string body) stack)
      | number digits => exact congrArg some (complete_expand written (.number digits) stack)
      | word letters =>
          change (wordValue letters).map _ = ((wordValue letters).map _).map _
          rw [wordValue_expand written, Option.map_map, Option.map_map]
          congr 1
          funext v
          exact complete_expand written v stack
      | endArray =>
          cases stack with
          | nil => rfl
          | cons frame stack =>
              cases frame with
              | array items =>
                  cases items with
                  | nil => exact congrArg some (complete_expand written (.array []) stack)
                  | cons => rfl
              | object => rfl
      | beginArray | beginObject | endObject | nameSeparator | valueSeparator => rfl
  | name fields stack =>
      cases fields with
      | nil =>
          cases t with
          | endObject => exact congrArg some (complete_expand written (.object []) stack)
          | _ => rfl
      | cons => cases t <;> rfl
  | nameSeparator => cases t <;> rfl
  | item p stack =>
      cases p with
      | array items =>
          cases t with
          | endArray =>
              rw [ReadState.expand, Partial.expand, ← expandItems_eq]
              exact congrArg some (complete_expand written (.array items) stack)
          | _ => rfl
      | object fields =>
          cases t with
          | endObject =>
              rw [ReadState.expand, Partial.expand, ← expandFields_eq]
              exact congrArg some (complete_expand written (.object fields) stack)
          | _ => rfl
  | done => cases t <;> rfl

theorem readRun_expand (state : ReadState τ) (l : List (Token τ)) :
    readRun (state.expand written) (l.map (Token.expand written)) =
      (readRun state l).map (ReadState.expand written) := by
  induction l generalizing state with
  | nil => rfl
  | cons t l ih =>
      rw [List.map_cons, readRun, readRun, readStep_expand, Option.map_bind, Option.bind_map]
      congr 1
      funext state
      exact ih state

end Reader

section Decode

variable {written : τ → Bytes} {text : Text τ}

theorem tokens_expand (hcontent : ∀ t, .given t ∈ text → IsContent (written t))
    {l : List (Token τ)} (h : tokens text = some l) :
    tokens (expand written text) = some (l.map (Token.expand written)) := by
  obtain ⟨⟨read, state⟩, hrun, hend⟩ := Option.bind_eq_some_iff.mp h
  have hexpand : lexRun .between (expand written text) = some (expandRead written (read, state)) :=
    lexRun_expand hcontent hrun
  rw [tokens, hexpand]
  change Option.bind (some _) _ = _
  rw [Option.bind_some]
  cases state with
  | between =>
      cases hend
      rfl
  | number digits =>
      dsimp only at hend
      split_ifs at hend with hnumber
      cases hend
      dsimp only [expandRead, LexState.expand]
      rw [if_pos hnumber, List.map_append]
      rfl
  | word letters =>
      cases hend
      rw [List.map_append]
      rfl
  | string | escape | hex => cases hend

theorem decode_expand (hcontent : ∀ t, .given t ∈ text → IsContent (written t)) {v : Value τ}
    (h : decode text = some v) : decode (expand written text) = some (v.expand written) := by
  obtain ⟨l, htokens, hread⟩ := Option.bind_eq_some_iff.mp h
  obtain ⟨state, hrun, hend⟩ := Option.bind_eq_some_iff.mp hread
  have hexpand : readRun (.value []) (l.map (Token.expand written)) =
      some (state.expand written) := by
    rw [← Option.map_some, ← hrun, ← readRun_expand]
    rfl
  rw [decode, tokens_expand hcontent htokens]
  change (readRun (.value []) _).bind _ = _
  rw [hexpand, Option.bind_some]
  cases state with
  | done w =>
      cases hend
      rfl
  | value | name | nameSeparator | item => cases hend

/-- A text that can be read is still read when its given strings are written out, exactly when each
of them can stand between quotes. -/
theorem decode_expand_isSome_iff {v : Value τ} (h : decode text = some v)
    (hsplit : ∀ t, .given t ∈ text → IsContent (written t) ∨ IsBlocked (written t)) :
    (decode (expand written text)).isSome ↔ ∀ t, .given t ∈ text → IsContent (written t) := by
  constructor
  · intro hsome t ht
    refine (hsplit t ht).resolve_right (fun hblocked => ?_)
    obtain ⟨l, htokens, -⟩ := Option.bind_eq_some_iff.mp h
    obtain ⟨r, hrun, -⟩ := Option.bind_eq_some_iff.mp htokens
    have hnone : lexRun .between (expand written text) = none :=
      lexRun_expand_none ht hblocked hsplit hrun
    rw [decode, tokens, hnone] at hsome
    cases hsome
  · intro hcontent
    rw [decode_expand hcontent h]
    rfl

end Decode

end JsonText
