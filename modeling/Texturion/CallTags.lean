/-
**The tags on the legs of a call.**

Every leg the server dials or answers carries a `client_state`: a family's tag and its fields,
joined by `|` and encoded in base 64.  The builders and parsers of the families stand in
`messaging/inbound-ring.ts`, `messaging/voice-webhook.ts` and `messaging/live-call.ts`; the router
of `calls/webhook-router.ts` and the session object of `calls/session-do.ts` each derive the key of
the session from a tag.

`btoa` throws outside Latin-1, and the parsers refuse a field that a leg cannot do without; what is
left is read back as it was built.

Main results:

* `CallTags.accepts_unique` — **no string is accepted by two families**;
* `CallTags.durableKey_eq` — **the router and the session object agree on the key**;
* `CallTags.call_tags` — **exactly which states survive**, with the two above.
-/

import Texturion.Base64
import Mathlib.Data.Nat.Digits.Defs

namespace CallTags

open JsText Base64

/-! ### Fields and their text -/

/-- The delimiter of the fields. -/
def PIPE : UInt16 := 0x7C

/-- A field without the delimiter. -/
def Plain (text : Text) : Prop := PIPE ∉ text

/-- A field whose units `btoa` can encode. -/
def Latin (text : Text) : Prop := ∀ u ∈ text, u ≤ 0xFF

instance (text : Text) : Decidable (Plain text) := inferInstanceAs (Decidable (_ ∉ _))

instance (text : Text) : Decidable (Latin text) :=
  List.decidableBAll (fun u => u ≤ 0xFF) text

def join (fields : List Text) : Text := [PIPE].intercalate fields

/-- `b64decode`: nothing for an absent or empty string, nor for one that `atob` throws on. -/
def b64decode (raw : Option Text) : Option Text :=
  raw.bind fun text => if text = [] then none else atob text

def decodedParts (raw : Option Text) : Option (List Text) :=
  (b64decode raw).bind fun decoded => if decoded = [] then none else some (decoded.splitOn PIPE)

/-- `text || null`. -/
def orNull (text : Text) : Option Text := if text = [] then none else some text

/-- `(a-f or digit)`, without regard to case. -/
def isHex (u : UInt16) : Bool := (0x30 ≤ u && u ≤ 0x39) || (0x41 ≤ foldCase u && foldCase u ≤ 0x46)

/-- The canonical shape of a UUID: eight, four, four, four and twelve hexadecimal digits. -/
def isUuid (text : Text) : Bool :=
  (text.splitOn 0x2D).map List.length == [8, 4, 4, 4, 12] &&
    text.all fun u => u == 0x2D || isHex u

/-! ### The families -/

def BROWSER_MEMBER_STATE : Text := ofString "brm"

def BROWSER_INBOUND_STATE : Text := ofString "bri"

def OUTBOUND_AGENT_STATE : Text := ofString "oc_agent"

def OUTBOUND_CUSTOMER_STATE : Text := ofString "oc_customer"

def OUTBOUND_PLACER_STATE : Text := ofString "op"

def TRANSFER_TARGET_STATE : Text := ofString "brt"

def CONSULT_LEG_STATE : Text := ofString "brc"

/-- A member's ring leg.  The ccid stands last: it may contain the delimiter. -/
@[ext] structure MemberRingState where
  sessionId : Text
  userId : Text
  caller : Option Text
  inboundCcid : Text
  deriving DecidableEq

def buildMemberRingState (input : MemberRingState) : Option Text :=
  btoa (join [BROWSER_MEMBER_STATE, input.sessionId, input.userId, input.caller.getD [],
    input.inboundCcid])

def parseMemberRingState (raw : Option Text) : Option MemberRingState :=
  (decodedParts raw).bind fun
    | tag :: sessionId :: userId :: caller :: ccid =>
      if tag ≠ BROWSER_MEMBER_STATE ∨ ccid = [] then none
      else
        let inboundCcid := join ccid
        if sessionId = [] ∨ userId = [] ∨ inboundCcid = [] then none
        else some { sessionId, userId, caller := orNull caller, inboundCcid }
    | _ => none

/-- The placer's own leg. -/
@[ext] structure OutboundPlacerState where
  sessionId : Text
  userId : Text
  deriving DecidableEq

def buildOutboundPlacerState (input : OutboundPlacerState) : Option Text :=
  btoa (join [OUTBOUND_PLACER_STATE, input.sessionId, input.userId])

def parseOutboundPlacerState (raw : Option Text) : Option OutboundPlacerState :=
  (decodedParts raw).bind fun parts =>
    if parts[0]? ≠ some OUTBOUND_PLACER_STATE then none
    else
      let sessionId := parts.getD 1 []
      let userId := parts.getD 2 []
      if sessionId = [] ∨ !isUuid sessionId ∨ userId = [] then none
      else some { sessionId, userId }

/-- The customer's leg of an outbound call. -/
@[ext] structure OutboundState where
  customerE164 : Text
  nonce : Text
  sessionId : Text
  deriving DecidableEq

def buildOutboundState (tag : Text) (input : OutboundState) : Option Text :=
  btoa (join [tag, input.customerE164, input.nonce, input.sessionId])

/-- The customer number that both outbound tags carry. -/
def decodeOutboundCustomer (raw : Option Text) : Option Text :=
  (decodedParts raw).bind fun parts =>
    if parts[0]? = some OUTBOUND_AGENT_STATE ∨ parts[0]? = some OUTBOUND_CUSTOMER_STATE then
      orNull (parts.getD 1 [])
    else none

def parseOutboundNonce (raw : Option Text) : Option Text :=
  (decodedParts raw).bind fun parts =>
    if parts[0]? = some OUTBOUND_CUSTOMER_STATE then orNull (parts.getD 2 []) else none

def parseOutboundSessionId (raw : Option Text) : Option Text :=
  (decodedParts raw).bind fun parts =>
    if parts[0]? ≠ some OUTBOUND_CUSTOMER_STATE then none
    else
      let s := parts.getD 3 []
      if s ≠ [] ∧ isUuid s then some s else none

/-- What the three parsers of the customer's tag read between them. -/
def readOutboundState (raw : Option Text) : Option OutboundState :=
  (decodeOutboundCustomer raw).bind fun customerE164 =>
    (parseOutboundNonce raw).bind fun nonce =>
      (parseOutboundSessionId raw).map fun sessionId => { customerE164, nonce, sessionId }

/-- The inbound leg that a browser answered. -/
@[ext] structure BrowserAnsweredState where
  caller : Option Text
  answeredAtIso : Text
  deriving DecidableEq

def buildBrowserAnsweredState (input : BrowserAnsweredState) : Option Text :=
  btoa (join [BROWSER_INBOUND_STATE, input.caller.getD [], input.answeredAtIso])

/-- The anchor of the talk time, from the text of its instant; `dateParse` is `Date.parse`, nothing
where that is not a number. -/
def parseBrowserAnsweredAtMs (dateParse : Text → Option ℤ) (raw : Option Text) : Option ℤ :=
  (decodedParts raw).bind fun parts =>
    if parts[0]? ≠ some BROWSER_INBOUND_STATE ∨ parts.length < 3 then none
    else dateParse (parts.getD 2 [])

inductive ConsultRole
  | s
  | t
  deriving DecidableEq

def ConsultRole.text : ConsultRole → Text
  | .s => ofString "s"
  | .t => ofString "t"

def ConsultRole.ofText (text : Text) : Option ConsultRole :=
  if text = ofString "s" then some .s else if text = ofString "t" then some .t else none

/-- A leg of the consult call before a transfer. -/
@[ext] structure ConsultState where
  sessionId : Text
  userId : Text
  role : ConsultRole
  deriving DecidableEq

def buildConsultState (input : ConsultState) : Option Text :=
  btoa (join [CONSULT_LEG_STATE, input.sessionId, input.userId, input.role.text])

def parseConsultState (raw : Option Text) : Option ConsultState :=
  (decodedParts raw).bind fun parts =>
    if parts[0]? ≠ some CONSULT_LEG_STATE ∨ parts.length < 4 then none
    else
      let sessionId := parts.getD 1 []
      let userId := parts.getD 2 []
      if sessionId = [] ∨ userId = [] then none
      else (ConsultRole.ofText (parts.getD 3 [])).map fun role => { sessionId, userId, role }

/-- The language's numbers, as far as a tag carries them: up to `===`, with `String(n)` and
`Number(text)`.  A finite number is read back from its text, which is ASCII without a `|`. -/
structure Numbers where
  Num : Type
  toText : Num → Text
  ofText : Text → Num
  isFinite : Num → Bool
  ofText_toText : ∀ n, isFinite n = true → ofText (toText n) = n
  plain_toText : ∀ n, Plain (toText n)
  latin_toText : ∀ n, Latin (toText n)

variable (numbers : Numbers)

/-- The target's leg of a transfer. -/
@[ext] structure TransferState where
  sessionId : Text
  targetUserId : Text
  senderUserId : Text
  hops : numbers.Num
  caller : Option Text

def buildTransferState (input : TransferState numbers) : Option Text :=
  btoa (join [TRANSFER_TARGET_STATE, input.sessionId, input.targetUserId, input.senderUserId,
    numbers.toText input.hops, input.caller.getD []])

def parseTransferState (raw : Option Text) : Option (TransferState numbers) :=
  (decodedParts raw).bind fun parts =>
    if parts[0]? ≠ some TRANSFER_TARGET_STATE ∨ parts.length < 6 then none
    else
      let sessionId := parts.getD 1 []
      let targetUserId := parts.getD 2 []
      let senderUserId := parts.getD 3 []
      let hops := numbers.ofText (parts.getD 4 [])
      if sessionId = [] ∨ targetUserId = [] ∨ senderUserId = [] ∨ !numbers.isFinite hops then none
      else some { sessionId, targetUserId, senderUserId, hops, caller := orNull (parts.getD 5 []) }

/-! ### Splitting what was joined -/

@[simp] theorem join_singleton (field : Text) : join [field] = field := List.intercalate_singleton

variable {fields : List Text} {raw : Option Text}

theorem join_cons (field : Text) (h : fields ≠ []) :
    join (field :: fields) = field ++ PIPE :: join fields := by
  unfold join
  rw [List.intercalate_cons_of_ne_nil h, List.append_assoc, List.singleton_append]

theorem splitOn_join_cons {field : Text} (hplain : Plain field)
    (h : fields ≠ []) : (join (field :: fields)).splitOn PIPE =
      field :: (join fields).splitOn PIPE := by
  rw [join_cons field h]
  exact List.splitOn_append_cons_self_of_not_mem hplain _

theorem splitOn_plain {field : Text} (hplain : Plain field) : field.splitOn PIPE = [field] :=
  List.splitOn_eq_singleton hplain

theorem latin_join : Latin (join fields) ↔ ∀ field ∈ fields, Latin field := by
  induction fields with
  | nil => simp [join, Latin]
  | cons field fields ih =>
      by_cases hnil : fields = []
      · simp [hnil]
      · rw [join_cons field hnil, List.forall_mem_cons, ← ih]
        constructor
        · intro h
          exact ⟨fun u hu => h u (List.mem_append_left _ hu),
            fun u hu => h u (List.mem_append_right _ (List.mem_cons_of_mem _ hu))⟩
        · rintro ⟨hfield, hrest⟩ u hu
          rcases List.mem_append.1 hu with hu | hu
          · exact hfield u hu
          · rcases List.mem_cons.1 hu with rfl | hu
            · decide
            · exact hrest u hu

theorem join_ne_nil {tag : Text} (h : tag ≠ []) (fields : List Text) : join (tag :: fields) ≠ [] := by
  by_cases hnil : fields = []
  · simpa [hnil] using h
  · rw [join_cons tag hnil]
    simp

theorem latin_of_btoa {text raw : Text} (h : btoa text = some raw) : Latin text := by
  unfold btoa at h
  split_ifs at h with hall
  exact fun u hu => by simpa using List.all_eq_true.1 hall u hu

/-- What was encoded is decoded into the pieces between its delimiters. -/
theorem decodedParts_btoa {text raw : Text} (hne : text ≠ []) (h : btoa text = some raw) :
    decodedParts (some raw) = some (text.splitOn PIPE) := by
  simp [decodedParts, b64decode, btoa_ne_nil h hne, atob_btoa h, hne]

/-! ### Round trips -/

/-- The state is built, and parsing gives it back. -/
def RoundTrips {σ : Type} (build : σ → Option Text) (parse : Option Text → Option σ) (x : σ) :
    Prop :=
  ∃ raw, build x = some raw ∧ parse (some raw) = some x

/-- A state whose fields are joined behind a tag survives when they can be encoded, and the pieces
of what was joined are read as the state. -/
theorem roundTrips_join {σ : Type} {tag : Text} (htag : tag ≠ []) {fields : σ → List Text}
    {read : List Text → Option σ} {x : σ} :
    RoundTrips (fun x => btoa (join (tag :: fields x))) (fun raw => (decodedParts raw).bind read)
        x ↔
      Latin (join (tag :: fields x)) ∧
        read ((join (tag :: fields x)).splitOn PIPE) = some x := by
  have hne := join_ne_nil htag (fields x)
  constructor
  · rintro ⟨raw, hbuild, hparse⟩
    simp only [decodedParts_btoa hne hbuild, Option.bind_some] at hparse
    exact ⟨latin_of_btoa hbuild, hparse⟩
  · rintro ⟨hlatin, hread⟩
    obtain ⟨raw, hraw⟩ := btoa_of_latin hlatin
    refine ⟨raw, hraw, ?_⟩
    simp only [decodedParts_btoa hne hraw, Option.bind_some]
    exact hread

theorem orNull_getD {caller : Option Text} : orNull (caller.getD []) = caller ↔ caller ≠ some [] := by
  cases caller with
  | none => simp [orNull]
  | some text => by_cases h : text = [] <;> simp [orNull, h]

/-- The fields that may not contain the delimiter do not. -/
def MemberRingState.Plain (x : MemberRingState) : Prop :=
  CallTags.Plain x.sessionId ∧ CallTags.Plain x.userId ∧ CallTags.Plain (x.caller.getD [])

/-- The fields the leg cannot do without are there, an unknown caller is no caller at all, and
every field can be encoded. -/
def MemberRingState.Complete (x : MemberRingState) : Prop :=
  (x.sessionId ≠ [] ∧ x.userId ≠ [] ∧ x.inboundCcid ≠ [] ∧ x.caller ≠ some []) ∧
    Latin x.sessionId ∧ Latin x.userId ∧ Latin (x.caller.getD []) ∧ Latin x.inboundCcid

theorem memberRing_roundTrips {x : MemberRingState} (hplain : x.Plain) :
    RoundTrips buildMemberRingState parseMemberRingState x ↔ x.Complete := by
  obtain ⟨hsession, huser, hcaller⟩ := hplain
  have htag : CallTags.Plain BROWSER_MEMBER_STATE := by decide
  have hsplit : (join [BROWSER_MEMBER_STATE, x.sessionId, x.userId, x.caller.getD [],
      x.inboundCcid]).splitOn PIPE =
        BROWSER_MEMBER_STATE :: x.sessionId :: x.userId :: x.caller.getD [] ::
          x.inboundCcid.splitOn PIPE := by
    rw [splitOn_join_cons htag (by simp), splitOn_join_cons hsession (by simp),
      splitOn_join_cons huser (by simp), splitOn_join_cons hcaller (by simp), join_singleton]
  have hccid : join (x.inboundCcid.splitOn PIPE) = x.inboundCcid :=
    List.intercalate_splitOn PIPE
  have hlatin : Latin BROWSER_MEMBER_STATE := by decide
  rw [show RoundTrips buildMemberRingState parseMemberRingState x ↔ _ from
    roundTrips_join (show BROWSER_MEMBER_STATE ≠ [] by decide), hsplit, latin_join]
  simp only [ne_eq, not_true_eq_false, List.splitOn_ne_nil, or_self, if_false, hccid,
    Option.ite_none_left_eq_some, Option.some.injEq, MemberRingState.ext_iff, orNull_getD,
    List.forall_mem_cons, hlatin, not_or, true_and, and_true, List.not_mem_nil, false_implies,
    implies_true, MemberRingState.Complete]
  tauto

def OutboundPlacerState.Plain (x : OutboundPlacerState) : Prop :=
  CallTags.Plain x.sessionId ∧ CallTags.Plain x.userId

def OutboundPlacerState.Complete (x : OutboundPlacerState) : Prop :=
  (isUuid x.sessionId = true ∧ x.userId ≠ []) ∧ Latin x.sessionId ∧ Latin x.userId

theorem isUuid_ne_nil {text : Text} (h : isUuid text = true) : text ≠ [] := by
  rintro rfl
  exact absurd h (by decide)

theorem outboundPlacer_roundTrips {x : OutboundPlacerState} (hplain : x.Plain) :
    RoundTrips buildOutboundPlacerState parseOutboundPlacerState x ↔ x.Complete := by
  obtain ⟨hsession, huser⟩ := hplain
  have htag : CallTags.Plain OUTBOUND_PLACER_STATE := by decide
  have hsplit : (join [OUTBOUND_PLACER_STATE, x.sessionId, x.userId]).splitOn PIPE =
      [OUTBOUND_PLACER_STATE, x.sessionId, x.userId] := by
    rw [splitOn_join_cons htag (by simp), splitOn_join_cons hsession (by simp), join_singleton,
      splitOn_plain huser]
  have hlatin : Latin OUTBOUND_PLACER_STATE := by decide
  have hne := @isUuid_ne_nil x.sessionId
  rw [show RoundTrips buildOutboundPlacerState parseOutboundPlacerState x ↔ _ from
    roundTrips_join (show OUTBOUND_PLACER_STATE ≠ [] by decide), hsplit, latin_join]
  simp only [ne_eq, List.getElem?_cons_zero, not_true_eq_false, if_false, List.getD_cons_succ,
    List.getD_cons_zero, Option.ite_none_left_eq_some, and_true,
    List.forall_mem_cons, hlatin, not_or, true_and, List.not_mem_nil, false_implies,
    implies_true, OutboundPlacerState.Complete, Bool.not_eq_true', Bool.not_eq_false]
  tauto

def OutboundState.Plain (x : OutboundState) : Prop :=
  CallTags.Plain x.customerE164 ∧ CallTags.Plain x.nonce ∧ CallTags.Plain x.sessionId

def OutboundState.Complete (x : OutboundState) : Prop :=
  (x.customerE164 ≠ [] ∧ x.nonce ≠ [] ∧ isUuid x.sessionId = true) ∧
    Latin x.customerE164 ∧ Latin x.nonce ∧ Latin x.sessionId

theorem orNull_eq_some {text value : Text} : orNull text = some value ↔ text = value ∧ text ≠ [] := by
  unfold orNull
  split_ifs with h
  · simp [h]
  · simp [h]

theorem readOutboundState_eq (raw : Option Text) :
    readOutboundState raw = (decodedParts raw).bind fun parts =>
      if parts[0]? = some OUTBOUND_CUSTOMER_STATE then
        (orNull (parts.getD 1 [])).bind fun customerE164 =>
          (orNull (parts.getD 2 [])).bind fun nonce =>
            if parts.getD 3 [] ≠ [] ∧ isUuid (parts.getD 3 []) then
              some { customerE164, nonce, sessionId := parts.getD 3 [] }
            else none
      else none := by
  unfold readOutboundState decodeOutboundCustomer parseOutboundNonce parseOutboundSessionId
  cases decodedParts raw with
  | none => rfl
  | some parts =>
      simp only [Option.bind_some]
      by_cases htag : parts[0]? = some OUTBOUND_CUSTOMER_STATE
      · simp only [htag, or_true, if_true, ne_eq, not_true_eq_false, if_false]
        cases orNull (parts.getD 1 []) with
        | none => rfl
        | some customerE164 =>
            cases orNull (parts.getD 2 []) with
            | none => rfl
            | some nonce =>
                simp only [Option.bind_some]
                split_ifs <;> rfl
      · simp only [htag, if_false]
        cases (if parts[0]? = some OUTBOUND_AGENT_STATE ∨ False then orNull (parts.getD 1 [])
          else none) with
        | none => rfl
        | some customerE164 => rfl

theorem outboundCustomer_roundTrips {x : OutboundState} (hplain : x.Plain) :
    RoundTrips (buildOutboundState OUTBOUND_CUSTOMER_STATE) readOutboundState x ↔ x.Complete := by
  obtain ⟨hcustomer, hnonce, hsession⟩ := hplain
  have htag : CallTags.Plain OUTBOUND_CUSTOMER_STATE := by decide
  have hsplit : (join [OUTBOUND_CUSTOMER_STATE, x.customerE164, x.nonce, x.sessionId]).splitOn
      PIPE = [OUTBOUND_CUSTOMER_STATE, x.customerE164, x.nonce, x.sessionId] := by
    rw [splitOn_join_cons htag (by simp), splitOn_join_cons hcustomer (by simp),
      splitOn_join_cons hnonce (by simp), join_singleton, splitOn_plain hsession]
  have hlatin : Latin OUTBOUND_CUSTOMER_STATE := by decide
  have hne := @isUuid_ne_nil x.sessionId
  rw [show readOutboundState = _ from funext readOutboundState_eq,
    show RoundTrips (buildOutboundState OUTBOUND_CUSTOMER_STATE) _ x ↔ _ from
      roundTrips_join (show OUTBOUND_CUSTOMER_STATE ≠ [] by decide), hsplit, latin_join]
  simp only [List.getElem?_cons_zero, if_true, List.getD_cons_succ, List.getD_cons_zero,
    Option.bind_eq_some_iff, orNull_eq_some, Option.ite_none_right_eq_some, Option.some.injEq,
    OutboundState.ext_iff, List.forall_mem_cons, hlatin, true_and, List.not_mem_nil,
    false_implies, implies_true, and_true, OutboundState.Complete, ne_eq]
  constructor
  · rintro ⟨hall, customerE164, ⟨rfl, hc⟩, nonce, ⟨rfl, hn⟩, ⟨_, hu⟩, _⟩
    exact ⟨⟨hc, hn, hu⟩, hall⟩
  · rintro ⟨⟨hc, hn, hu⟩, hall⟩
    exact ⟨hall, _, ⟨rfl, hc⟩, _, ⟨rfl, hn⟩, ⟨hne hu, hu⟩, rfl, rfl⟩

def BrowserAnsweredState.Plain (x : BrowserAnsweredState) : Prop :=
  CallTags.Plain (x.caller.getD []) ∧ CallTags.Plain x.answeredAtIso

/-- The anchor of the talk time is read back as the instant that was written. -/
theorem browserAnswered_anchor (dateParse : Text → Option ℤ) {x : BrowserAnsweredState}
    (hplain : x.Plain) :
    (∃ raw, buildBrowserAnsweredState x = some raw ∧
        parseBrowserAnsweredAtMs dateParse (some raw) = dateParse x.answeredAtIso) ↔
      Latin (x.caller.getD []) ∧ Latin x.answeredAtIso := by
  obtain ⟨hcaller, hiso⟩ := hplain
  have htag : CallTags.Plain BROWSER_INBOUND_STATE := by decide
  have hsplit : (join [BROWSER_INBOUND_STATE, x.caller.getD [], x.answeredAtIso]).splitOn PIPE =
      [BROWSER_INBOUND_STATE, x.caller.getD [], x.answeredAtIso] := by
    rw [splitOn_join_cons htag (by simp), splitOn_join_cons hcaller (by simp), join_singleton,
      splitOn_plain hiso]
  have hlatin : Latin BROWSER_INBOUND_STATE := by decide
  have hne : join [BROWSER_INBOUND_STATE, x.caller.getD [], x.answeredAtIso] ≠ [] :=
    join_ne_nil (by decide) _
  have hall : Latin (join [BROWSER_INBOUND_STATE, x.caller.getD [], x.answeredAtIso]) ↔
      Latin (x.caller.getD []) ∧ Latin x.answeredAtIso := by
    rw [latin_join]
    simp [hlatin]
  constructor
  · rintro ⟨raw, hbuild, _⟩
    exact hall.1 (latin_of_btoa hbuild)
  · intro h
    obtain ⟨raw, hraw⟩ := btoa_of_latin (hall.2 h)
    refine ⟨raw, hraw, ?_⟩
    simp [parseBrowserAnsweredAtMs, decodedParts_btoa hne hraw, hsplit]

def ConsultState.Plain (x : ConsultState) : Prop :=
  CallTags.Plain x.sessionId ∧ CallTags.Plain x.userId

def ConsultState.Complete (x : ConsultState) : Prop :=
  (x.sessionId ≠ [] ∧ x.userId ≠ []) ∧ Latin x.sessionId ∧ Latin x.userId

theorem ConsultRole.ofText_text (role : ConsultRole) : ofText role.text = some role := by
  cases role <;> decide

theorem consult_roundTrips {x : ConsultState} (hplain : x.Plain) :
    RoundTrips buildConsultState parseConsultState x ↔ x.Complete := by
  obtain ⟨hsession, huser⟩ := hplain
  have htag : CallTags.Plain CONSULT_LEG_STATE := by decide
  have hrole : CallTags.Plain x.role.text ∧ Latin x.role.text := by
    cases x.role <;> decide
  have hsplit : (join [CONSULT_LEG_STATE, x.sessionId, x.userId, x.role.text]).splitOn PIPE =
      [CONSULT_LEG_STATE, x.sessionId, x.userId, x.role.text] := by
    rw [splitOn_join_cons htag (by simp), splitOn_join_cons hsession (by simp),
      splitOn_join_cons huser (by simp), join_singleton, splitOn_plain hrole.1]
  have hlatin : Latin CONSULT_LEG_STATE := by decide
  rw [show RoundTrips buildConsultState parseConsultState x ↔ _ from
    roundTrips_join (show CONSULT_LEG_STATE ≠ [] by decide), hsplit, latin_join]
  simp only [ne_eq, List.getElem?_cons_zero, not_true_eq_false, List.length_cons, List.length_nil,
    Nat.reduceAdd, lt_irrefl, or_self, if_false, List.getD_cons_succ, List.getD_cons_zero,
    ConsultRole.ofText_text, Option.map_some, Option.ite_none_left_eq_some, and_true,
    List.forall_mem_cons, hlatin, hrole.2, not_or, true_and, List.not_mem_nil, false_implies,
    implies_true, ConsultState.Complete]
  tauto

variable {numbers}

def TransferState.Plain (x : TransferState numbers) : Prop :=
  CallTags.Plain x.sessionId ∧ CallTags.Plain x.targetUserId ∧ CallTags.Plain x.senderUserId ∧
    CallTags.Plain (x.caller.getD [])

/-- There are a session, a target and a sender, the hops are a finite number, and an unknown caller
is no caller at all. -/
def TransferState.Complete (x : TransferState numbers) : Prop :=
  (x.sessionId ≠ [] ∧ x.targetUserId ≠ [] ∧ x.senderUserId ≠ [] ∧
      numbers.isFinite x.hops = true ∧ x.caller ≠ some []) ∧
    Latin x.sessionId ∧ Latin x.targetUserId ∧ Latin x.senderUserId ∧ Latin (x.caller.getD [])

theorem transfer_roundTrips {x : TransferState numbers} (hplain : x.Plain) :
    RoundTrips (buildTransferState numbers) (parseTransferState numbers) x ↔ x.Complete := by
  obtain ⟨hsession, htarget, hsender, hcaller⟩ := hplain
  have htag : CallTags.Plain TRANSFER_TARGET_STATE := by decide
  have hhops := numbers.plain_toText x.hops
  have hsplit : (join [TRANSFER_TARGET_STATE, x.sessionId, x.targetUserId, x.senderUserId,
      numbers.toText x.hops, x.caller.getD []]).splitOn PIPE =
        [TRANSFER_TARGET_STATE, x.sessionId, x.targetUserId, x.senderUserId,
          numbers.toText x.hops, x.caller.getD []] := by
    rw [splitOn_join_cons htag (by simp), splitOn_join_cons hsession (by simp),
      splitOn_join_cons htarget (by simp), splitOn_join_cons hsender (by simp),
      splitOn_join_cons hhops (by simp), join_singleton, splitOn_plain hcaller]
  have hlatin : Latin TRANSFER_TARGET_STATE := by decide
  have hlatin' := numbers.latin_toText x.hops
  have hback : numbers.isFinite (numbers.ofText (numbers.toText x.hops)) = true ∧
      numbers.ofText (numbers.toText x.hops) = x.hops ↔ numbers.isFinite x.hops = true := by
    constructor
    · rintro ⟨hfinite, heq⟩
      rwa [heq] at hfinite
    · intro hfinite
      have heq := numbers.ofText_toText x.hops hfinite
      exact ⟨by rw [heq]; exact hfinite, heq⟩
  rw [show RoundTrips (buildTransferState numbers) (parseTransferState numbers) x ↔ _ from
    roundTrips_join (show TRANSFER_TARGET_STATE ≠ [] by decide), hsplit, latin_join]
  simp only [ne_eq, List.getElem?_cons_zero, not_true_eq_false, List.length_cons, List.length_nil,
    Nat.reduceAdd, lt_irrefl, or_self, if_false, List.getD_cons_succ, List.getD_cons_zero,
    Option.ite_none_left_eq_some, Option.some.injEq, TransferState.ext_iff, orNull_getD,
    List.forall_mem_cons, hlatin, hlatin', not_or, true_and, List.not_mem_nil, false_implies,
    implies_true, and_true, Bool.not_eq_true', Bool.not_eq_false, TransferState.Complete, ← hback]
  tauto

/-! ### One family to a string -/

/-- The families of tags that have parsers. -/
inductive Family
  | memberRing
  | outboundPlacer
  | outboundCustomer
  | browserAnswered
  | transfer
  | consult
  deriving DecidableEq

/-- The tags whose strings the parsers of a family look at. -/
def Family.tags : Family → List Text
  | .memberRing => [BROWSER_MEMBER_STATE]
  | .outboundPlacer => [OUTBOUND_PLACER_STATE]
  | .outboundCustomer => [OUTBOUND_AGENT_STATE, OUTBOUND_CUSTOMER_STATE]
  | .browserAnswered => [BROWSER_INBOUND_STATE]
  | .transfer => [TRANSFER_TARGET_STATE]
  | .consult => [CONSULT_LEG_STATE]

variable (numbers) in
/-- A parser of the family accepts the string. -/
def Accepts (dateParse : Text → Option ℤ) (raw : Option Text) : Family → Prop
  | .memberRing => (parseMemberRingState raw).isSome
  | .outboundPlacer => (parseOutboundPlacerState raw).isSome
  | .outboundCustomer => (decodeOutboundCustomer raw).isSome ∨ (parseOutboundNonce raw).isSome ∨
      (parseOutboundSessionId raw).isSome
  | .browserAnswered => (parseBrowserAnsweredAtMs dateParse raw).isSome
  | .transfer => (parseTransferState numbers raw).isSome
  | .consult => (parseConsultState raw).isSome

/-- The tag a string begins with. -/
def tagOf (raw : Option Text) : Option Text := (decodedParts raw).bind fun parts => parts[0]?

/-- A parser that looks at nothing but strings with a tag of its own accepts no others. -/
theorem tag_of_isSome {σ : Type} {tags : List Text} {read : List Text → Option σ}
    (hread : ∀ parts, (∀ tag ∈ tags, parts[0]? ≠ some tag) → read parts = none)
    (h : ((decodedParts raw).bind read).isSome = true) : ∃ tag ∈ tags, tagOf raw = some tag := by
  unfold tagOf
  cases hparts : decodedParts raw with
  | none =>
      rw [hparts] at h
      cases h
  | some parts =>
      rw [hparts, Option.bind_some] at h
      by_contra hnone
      rw [hread parts fun tag htag heq => hnone ⟨tag, htag, by simpa using heq⟩] at h
      cases h

theorem tagOf_memberRing (h : (parseMemberRingState raw).isSome = true) :
    ∃ tag ∈ Family.memberRing.tags, tagOf raw = some tag := by
  refine tag_of_isSome (fun parts hparts => ?_) h
  have htag := hparts BROWSER_MEMBER_STATE (by simp [Family.tags])
  split
  next => rw [if_pos (Or.inl (by simpa using htag))]
  next => rfl

theorem tagOf_outboundSession (h : (parseOutboundSessionId raw).isSome = true) :
    ∃ tag ∈ Family.outboundCustomer.tags, tagOf raw = some tag := by
  refine tag_of_isSome (fun parts hparts => ?_) h
  rw [if_pos (hparts OUTBOUND_CUSTOMER_STATE (by simp [Family.tags]))]

theorem accepts_tag {dateParse : Text → Option ℤ} {family : Family}
    (h : Accepts numbers dateParse raw family) : ∃ tag ∈ family.tags, tagOf raw = some tag := by
  cases family with
  | memberRing => exact tagOf_memberRing h
  | outboundPlacer =>
      refine tag_of_isSome (fun parts hparts => ?_) h
      rw [if_pos (hparts OUTBOUND_PLACER_STATE (by simp [Family.tags]))]
  | outboundCustomer =>
      rcases h with h | h | h
      · refine tag_of_isSome (fun parts hparts => ?_) h
        rw [if_neg (not_or.2 ⟨hparts OUTBOUND_AGENT_STATE (by simp [Family.tags]),
          hparts OUTBOUND_CUSTOMER_STATE (by simp [Family.tags])⟩)]
      · refine tag_of_isSome (fun parts hparts => ?_) h
        rw [if_neg (hparts OUTBOUND_CUSTOMER_STATE (by simp [Family.tags]))]
      · exact tagOf_outboundSession h
  | browserAnswered =>
      refine tag_of_isSome (fun parts hparts => ?_) h
      rw [if_pos (Or.inl (hparts BROWSER_INBOUND_STATE (by simp [Family.tags])))]
  | transfer =>
      refine tag_of_isSome (fun parts hparts => ?_) h
      rw [if_pos (Or.inl (hparts TRANSFER_TARGET_STATE (by simp [Family.tags])))]
  | consult =>
      refine tag_of_isSome (fun parts hparts => ?_) h
      rw [if_pos (Or.inl (hparts CONSULT_LEG_STATE (by simp [Family.tags])))]

theorem tags_disjoint (f g : Family) : (∃ tag ∈ f.tags, tag ∈ g.tags) → f = g := by
  cases f <;> cases g <;> decide

/-- **No string is accepted by two families.** -/
theorem accepts_unique {dateParse : Text → Option ℤ} {f g : Family}
    (hf : Accepts numbers dateParse raw f) (hg : Accepts numbers dateParse raw g) : f = g := by
  obtain ⟨tag, htag, hparts⟩ := accepts_tag hf
  obtain ⟨tag', htag', hparts'⟩ := accepts_tag hg
  obtain rfl := Option.some.inj (hparts.symm.trans hparts')
  exact tags_disjoint f g ⟨tag, htag, htag'⟩

/-! ### The key of the session -/

/-- What the router and the session object read of a webhook's payload. -/
structure CallPayload where
  callSessionId : Option Text := none
  clientState : Option Text := none
  direction : Option Text := none
  toNumber : Option Text := none
  deriving DecidableEq

structure TelnyxEvent where
  eventType : Option Text
  payload : Option CallPayload
  deriving DecidableEq

/-- The router's key. -/
def sessionKeyFor (event : TelnyxEvent) : Option Text :=
  let payload := event.payload.getD {}
  let memberState := parseMemberRingState payload.clientState
  let outboundSession := parseOutboundSessionId payload.clientState
  let placerSession := (parseOutboundPlacerState payload.clientState).map
    OutboundPlacerState.sessionId
  (memberState.map MemberRingState.sessionId).or
    (outboundSession.or (placerSession.or payload.callSessionId))

def CALL_INITIATED : Text := ofString "call.initiated"

/-- The key under which the session object handles an event, where it does not drop it.  A
`call.initiated` is handed on with the session of an outbound tag, or with the session the
carrier names; the dial-target gate `requiresUnauthorizedHangup` is a parameter.  Every other event
is handled under the session of its tag, or the one the carrier names. -/
def durableKey (requiresUnauthorizedHangup : CallPayload → Bool) (event : TelnyxEvent) :
    Option Text :=
  match event.eventType.bind orNull, event.payload with
  | some eventType, some payload =>
    let memberState := parseMemberRingState payload.clientState
    let outboundSession := parseOutboundSessionId payload.clientState
    let placerState := parseOutboundPlacerState payload.clientState
    if eventType = CALL_INITIATED then
      if outboundSession.isSome then outboundSession
      else if requiresUnauthorizedHangup payload then none
      else if placerState.isSome then none
      else if memberState.isSome || ((payload.clientState.bind orNull).isSome &&
          payload.direction == some (ofString "incoming")) then none
      else some (payload.callSessionId.getD [])
    else
      (memberState.map MemberRingState.sessionId).or
        (outboundSession.or ((placerState.map OutboundPlacerState.sessionId).or
          payload.callSessionId))
  | _, _ => none

theorem memberState_none_of_outbound {s : Text}
    (h : parseOutboundSessionId raw = some s) : parseMemberRingState raw = none := by
  by_contra hmember
  have hsome : (parseOutboundSessionId raw).isSome = true := by simp [h]
  obtain ⟨tag, htag, hcustomer⟩ := tagOf_outboundSession hsome
  obtain ⟨tag', htag', hring⟩ := tagOf_memberRing (Option.isSome_iff_ne_none.2 hmember)
  obtain rfl := Option.some.inj (hcustomer.symm.trans hring)
  have hsame := tags_disjoint .outboundCustomer .memberRing ⟨tag, htag, htag'⟩
  cases hsame

/-- **The router and the session object agree on the key.**  An event that the router finds a key
for is handled under that key, or dropped. -/
theorem durableKey_eq (requiresUnauthorizedHangup : CallPayload → Bool) {event : TelnyxEvent}
    {key k : Text} (hkey : sessionKeyFor event = some key)
    (hk : durableKey requiresUnauthorizedHangup event = some k) : k = key := by
  unfold durableKey at hk
  unfold sessionKeyFor at hkey
  split at hk
  next eventType payload htype hpayload =>
    simp only [hpayload, Option.getD_some] at hkey
    simp only at hk
    split_ifs at hk with hinitiated houtbound hgate hplacer hdrop
    · obtain ⟨s, hs⟩ := Option.isSome_iff_exists.1 houtbound
      rw [memberState_none_of_outbound hs, hs] at hkey
      rw [hs] at hk
      simp only [Option.map_none, Option.none_or, Option.some_or] at hkey
      exact Option.some.inj (hk.symm.trans hkey)
    · simp only [Bool.or_eq_true, not_or, Bool.not_eq_true, Option.isSome_eq_false_iff,
        Option.isNone_iff_eq_none] at hdrop
      have ho : parseOutboundSessionId payload.clientState = none := by simpa using houtbound
      have hp : parseOutboundPlacerState payload.clientState = none := by simpa using hplacer
      rw [hdrop.1, ho, hp] at hkey
      simp only [Option.map_none, Option.none_or] at hkey
      rw [hkey] at hk
      exact (Option.some.inj hk).symm
    · exact Option.some.inj (hk.symm.trans hkey)
  next => cases hk

/-! ### The codecs together -/

/-- **The tags of a call.**  For fields without the delimiter, a built state is read back as it was
exactly when it is complete; no string is accepted by the parsers of two families; and an event is
handled by the session object under the key that the router found for it, or dropped. -/
theorem call_tags (numbers : Numbers) (dateParse : Text → Option ℤ)
    (requiresUnauthorizedHangup : CallPayload → Bool) :
    (∀ x : MemberRingState, x.Plain →
      (RoundTrips buildMemberRingState parseMemberRingState x ↔ x.Complete)) ∧
    (∀ x : OutboundPlacerState, x.Plain →
      (RoundTrips buildOutboundPlacerState parseOutboundPlacerState x ↔ x.Complete)) ∧
    (∀ x : OutboundState, x.Plain →
      (RoundTrips (buildOutboundState OUTBOUND_CUSTOMER_STATE) readOutboundState x ↔
        x.Complete)) ∧
    (∀ x : BrowserAnsweredState, x.Plain →
      ((∃ raw, buildBrowserAnsweredState x = some raw ∧
          parseBrowserAnsweredAtMs dateParse (some raw) = dateParse x.answeredAtIso) ↔
        Latin (x.caller.getD []) ∧ Latin x.answeredAtIso)) ∧
    (∀ x : ConsultState, x.Plain →
      (RoundTrips buildConsultState parseConsultState x ↔ x.Complete)) ∧
    (∀ x : TransferState numbers, x.Plain →
      (RoundTrips (buildTransferState numbers) (parseTransferState numbers) x ↔ x.Complete)) ∧
    (∀ raw f g, Accepts numbers dateParse raw f → Accepts numbers dateParse raw g → f = g) ∧
    (∀ event key k, sessionKeyFor event = some key →
      durableKey requiresUnauthorizedHangup event = some k → k = key) :=
  ⟨fun _ => memberRing_roundTrips, fun _ => outboundPlacer_roundTrips,
    fun _ => outboundCustomer_roundTrips, fun _ => browserAnswered_anchor dateParse,
    fun _ => consult_roundTrips, fun _ => transfer_roundTrips, fun _ _ _ => accepts_unique,
    fun _ _ _ => durableKey_eq requiresUnauthorizedHangup⟩

/-- A placer's tag whose session is no UUID is built, and not read back. -/
theorem malformed_session_refused :
    ¬ ∀ x : OutboundPlacerState, x.Plain →
      RoundTrips buildOutboundPlacerState parseOutboundPlacerState x := by
  intro h
  let x : OutboundPlacerState := { sessionId := ofString "session", userId := ofString "ana" }
  have hplain : x.Plain := ⟨by decide, by decide⟩
  have hcomplete := (outboundPlacer_roundTrips hplain).1 (h x hplain)
  exact absurd hcomplete.1.1 (by decide)

def decimal (n : ℕ) : Text :=
  if n = 0 then [0x30] else (Nat.digits 10 n).reverse.map fun d => (0x30 + d).toUInt16

theorem decimal_digits (n : ℕ) : ∀ u ∈ decimal n, 0x30 ≤ u ∧ u ≤ 0x39 := by
  have hdigit : ∀ d < 10, (0x30 : UInt16) ≤ (0x30 + d).toUInt16 ∧
      (0x30 + d).toUInt16 ≤ (0x39 : UInt16) := by decide
  unfold decimal
  split_ifs
  · intro u hu
    rw [List.mem_singleton.1 hu]
    decide
  · intro u hu
    obtain ⟨d, hd, rfl⟩ := List.mem_map.1 hu
    exact hdigit d (Nat.digits_lt_base (by omega) (List.mem_reverse.1 hd))

/-- The natural numbers among the language's, and one value for all the others. -/
def decimals : Numbers where
  Num := Option ℕ
  toText n := (n.map decimal).getD (ofString "NaN")
  ofText text :=
    if text ≠ [] ∧ text.all fun u => 0x30 ≤ u && u ≤ 0x39 then
      some (Nat.ofDigits 10 (text.reverse.map fun u => u.toNat - 0x30))
    else none
  isFinite := Option.isSome
  ofText_toText := by
    intro n hn
    obtain ⟨n, rfl⟩ := Option.isSome_iff_exists.1 hn
    have hdigit : ∀ d < 10, (0x30 + d).toUInt16.toNat - 0x30 = d := by decide
    have hne : decimal n ≠ [] := by
      unfold decimal
      split_ifs with hzero
      · simp
      · simpa [Nat.digits_ne_nil_iff_ne_zero] using hzero
    have hall : (decimal n).all (fun u => 0x30 ≤ u && u ≤ 0x39) = true :=
      List.all_eq_true.2 fun u hu => by simpa using decimal_digits n u hu
    simp only [Option.map_some, Option.getD_some, if_pos (And.intro hne hall), Option.some.injEq]
    unfold decimal
    split_ifs with hzero
    · rw [hzero]
      rfl
    · rw [← List.map_reverse, List.reverse_reverse, List.map_map]
      have hmap : (Nat.digits 10 n).map ((fun u : UInt16 => u.toNat - 0x30) ∘
          fun d => (0x30 + d).toUInt16) = Nat.digits 10 n :=
        (List.map_congr_left fun d hd =>
          hdigit d (Nat.digits_lt_base (by omega) hd)).trans (List.map_id _)
      rw [hmap, Nat.ofDigits_digits]
  plain_toText := by
    intro n
    cases n with
    | none => decide
    | some n =>
        intro hpipe
        exact absurd (decimal_digits n PIPE hpipe).2 (by decide)
  latin_toText := by
    intro n
    cases n with
    | none => decide
    | some n =>
        intro u hu
        exact UInt16.le_trans (decimal_digits n u hu).2 (by decide)

/-- A transfer after one hop, from Ana to Bo, of a caller who is known. -/
theorem call_tags_one_hop :
    RoundTrips (buildTransferState decimals) (parseTransferState decimals)
      { sessionId := ofString "session", targetUserId := ofString "bo",
        senderUserId := ofString "ana", hops := some 1, caller := some (ofString "+15550001111") } :=
  ((call_tags decimals (fun _ => none) fun _ => false).2.2.2.2.2.1 _
    ⟨by decide, by decide, by decide, by decide⟩).2
    ⟨⟨by decide, by decide, by decide, rfl, by decide⟩, by decide, by decide, by decide,
      by decide⟩

end CallTags
