import ReproitCloud.Lib.BoundedText
import ReproitCloud.Protocol.Reading

/-!
# Frame lines

A runner writes each frame as one line of its output, and the line is
`REPROIT/1 domain subject sequence runId event`.  `encodeLine` writes it and
`decodeFrameLine` reads it.  A line that cannot be read becomes a `StreamDefect`, which names
the scope that loses evidence by it.

Reading needs the library's reader of a JSON text.  It is the parameter `readJson`, and
`ReadsBack` says of one frame that the text of its event is read as the value it was written
from.  What an event is made of from a value is `Event.read`.

What is read of a line that starts with a header is `decodeFrameLine_headed`, for a line of
any length: the header of a line that is too long is read from its first `maxHeaderBytes`
bytes, and those hold all of it.
-/

namespace ReproitCloud

open Lib

namespace Protocol

/-! ## Texts -/

/-- `FRAME_PREFIX`. -/
def framePrefix : String := "REPROIT/1 "

/-- The first field of a line. -/
def frameMagic : String := "REPROIT/1"

def maxHeaderBytes : Nat := 512

/-- `header_parts`. -/
def EvidenceScope.headerParts : EvidenceScope → String × String
  | shared => ("shared", "-")
  | backend => ("backend", "-")
  | contract (some contractHash) => ("contract", contractHash)
  | contract none => ("contract", "-")

/-- A text with the header of a scope and a sequence number before it. -/
def headed (scope : EvidenceScope) (sequence : UInt64) (rest : List Char) : List Char :=
  framePrefix.toList ++ (scope.headerParts.1.toList ++ ' ' :: (scope.headerParts.2.toList ++
    ' ' :: (uint64Chars sequence ++ ' ' :: rest)))

/-! ## Encoding -/

/-- `ProtocolError`. -/
structure ProtocolError where
  reason : ReasonCode
  scope : Option EvidenceScope := none
deriving DecidableEq, Repr

/-- A check whose refusal names no scope. -/
def unscoped (check : Check) : Except ProtocolError Unit :=
  check.mapError fun reason => { reason }

/-- `EventFrame::validate`, with the scope that its refusal names. -/
def EventFrame.scopedValidate (R : Renderings) (f : EventFrame) : Except ProtocolError Unit := do
  unscoped (validateToken f.runId)
  unscoped f.scope.validate
  unscoped (f.event.validate R)
  if maxFrameBytes < encodedBytes R f.event.declared then
    .error ⟨.frameTooLarge, some f.scope⟩
  else .ok ()

/-- `encode_line`. -/
def EventFrame.encodeLine (R : Renderings) (f : EventFrame) : Except ProtocolError String := do
  f.scopedValidate R
  let line := String.ofList
    (headed f.scope f.sequence (f.runId.toList ++ ' ' :: f.event.text R))
  if maxFrameBytes < line.utf8ByteSize then .error ⟨.frameTooLarge, some f.scope⟩ else .ok line

/-! ## Decoding -/

/-- `StreamDefect`. -/
structure StreamDefect where
  reason : ReasonCode
  scope : EvidenceScope
  sequence : Option UInt64
deriving DecidableEq, Repr

/-- `StreamDefect::shared`. -/
def StreamDefect.shared (reason : ReasonCode) : StreamDefect := ⟨reason, .shared, none⟩

/-- `parse_scope`. -/
def parseScope (domain subject : String) : Option EvidenceScope :=
  match domain, subject with
  | "shared", "-" => some .shared
  | "backend", "-" => some .backend
  | "contract", "-" => some (.contract none)
  | "contract", hash => if validHash hash 16 then some (.contract (some hash)) else none
  | _, _ => none

/-- `header_scope`. -/
def headerScope (header : List Char) : Option EvidenceScope :=
  let fields := (header.splitOn ' ').map String.ofList
  fields[0]?.bind fun magic =>
    if magic = frameMagic then
      fields[1]?.bind fun domain => fields[2]?.bind fun subject => parseScope domain subject
    else none

/-- `header_sequence`. -/
def headerSequence (header : List Char) : Option UInt64 :=
  (header.splitOn ' ')[3]?.bind parseUInt64

/-- The end of `decode_frame_line`, with the scope and the sequence number at hand. -/
def decodeFields (R : Renderings) (readJson : String → Option Json) (scope : EvidenceScope)
    (sequence : UInt64) : Option String → Option String → Except StreamDefect EventFrame
  | some runId, some eventJson =>
    match validateToken runId with
    | .error _ => .error ⟨.invalidEvent, scope, some sequence⟩
    | .ok () =>
      match Event.fromStr readJson eventJson with
      | none => .error ⟨.invalidEvent, scope, some sequence⟩
      | some event =>
        let frame : EventFrame := { runId, sequence, scope, event }
        match frame.scopedValidate R with
        | .error e => .error ⟨e.reason, e.scope.getD frame.scope, some sequence⟩
        | .ok () => .ok frame
  | _, _ => .error ⟨.malformedFrame, scope, some sequence⟩

/-- `decode_frame_line`. -/
def decodeFrameLine (R : Renderings) (readJson : String → Option Json) (line : String) :
    Except StreamDefect EventFrame :=
  let header := boundedPrefix line.toList maxHeaderBytes
  if maxFrameBytes < line.utf8ByteSize then
    .error ⟨.frameTooLarge, (headerScope header).getD .shared, headerSequence header⟩
  else if !framePrefix.toList.isPrefixOf line.toList then
    .error (.shared (if "REPROIT/".toList.isPrefixOf line.toList then .unsupportedVersion
      else .malformedFrame))
  else
    let parts := (splitN ' ' 6 line.toList).map String.ofList
    if parts[0]? ≠ some frameMagic then .error (.shared .malformedFrame)
    else
      match parseScope (parts[1]?.getD "") (parts[2]?.getD "") with
      | none => .error (.shared .malformedFrame)
      | some scope =>
        match parts[3]?.bind fun value => parseUInt64 value.toList with
        | none => .error ⟨.invalidSequence, scope, none⟩
        | some sequence => decodeFields R readJson scope sequence parts[4]? parts[5]?

/-- The text of the frame's event is read as the value it was written from.  `serde_json` does
so with strings, integers, arrays and objects.  A double may be read as a neighbour of the one
that was written, and a text that nests 128 deep is refused. -/
def ReadsBack (R : Renderings) (readJson : String → Option Json) (f : EventFrame) : Prop :=
  readJson (String.ofList (f.event.text R)) = some f.event.declared

/-! ## Validation -/

section Validation

variable {R : Renderings} {f : EventFrame}

/-- The order of the members changes no length. -/
theorem utf8Len_identity (i : FindingIdentity) :
    String.utf8Len (toVec R i.declared) = String.utf8Len (toVec R i.toValue) := by
  simp only [FindingIdentity.declared, FindingIdentity.toValue, toVec, membersVec,
    String.utf8Len_append, String.utf8Len_cons, String.utf8Len_nil]
  omega

theorem encodedBytes_declared (e : Event) :
    encodedBytes R e.declared = encodedBytes R e.toValue := by
  cases e with
  | finding signature message identity path context =>
    simp only [encodedBytes, String.utf8ByteSize_ofList, Event.declared, Event.toValue, toVec,
      membersVec, String.utf8Len_append, String.utf8Len_cons, String.utf8Len_nil, utf8Len_identity]
  | _ => rfl

@[simp] theorem unscoped_ok_iff {check : Check} : unscoped check = .ok () ↔ check = .ok () := by
  cases check <;> simp [unscoped, Except.mapError]

theorem scope_of_unscoped {check : Check} {e : ProtocolError} (h : unscoped check = .error e) :
    e.scope = none := by
  cases check with
  | ok u => cases h
  | error reason =>
    cases h
    rfl

/-- Two checks of a frame accept when each of them does. -/
theorem then_ok_iff {a b : Except ProtocolError Unit} :
    (a >>= fun _ => b) = .ok () ↔ a = .ok () ∧ b = .ok () := by
  cases a <;> simp [bind, Except.bind]

/-- They refuse when one of them does. -/
theorem refusal_of_then {a b : Except ProtocolError Unit} {e : ProtocolError}
    (h : (a >>= fun _ => b) = .error e) : a = .error e ∨ b = .error e := by
  cases a with
  | ok u => exact .inr h
  | error e' => exact .inl h

/-- A frame is valid for a line when it is valid in a batch. -/
theorem scopedValidate_ok_iff : f.scopedValidate R = .ok () ↔ f.validate R = .ok () := by
  have hsize : (if maxFrameBytes < encodedBytes R f.event.declared then
        .error ⟨.frameTooLarge, some f.scope⟩
      else .ok () : Except ProtocolError Unit) = .ok () ↔
      encodedBytes R f.event.toValue ≤ maxFrameBytes := by
    rw [encodedBytes_declared, ← not_lt]
    split <;> simp_all
  rw [EventFrame.scopedValidate, EventFrame.validate, then_ok_iff, then_ok_iff, then_ok_iff,
    both_ok_iff, both_ok_iff, both_ok_iff, unscoped_ok_iff, unscoped_ok_iff, unscoped_ok_iff, hsize,
    require_ok_iff, decide_eq_true_iff]

/-- A refusal names the scope of the frame, or none. -/
theorem scope_of_scopedValidate {e : ProtocolError} (h : f.scopedValidate R = .error e) :
    e.scope.getD f.scope = f.scope := by
  have hscope : e.scope = none ∨ e.scope = some f.scope := by
    rcases refusal_of_then h with h | h
    · exact .inl (scope_of_unscoped h)
    rcases refusal_of_then h with h | h
    · exact .inl (scope_of_unscoped h)
    rcases refusal_of_then h with h | h
    · exact .inl (scope_of_unscoped h)
    · split at h
      · cases h
        exact .inr rfl
      · cases h
  rcases hscope with hscope | hscope <;> rw [hscope] <;> rfl

end Validation

/-! ## Headers -/

section Headers

variable {scope : EvidenceScope} {sequence : UInt64} {domain subject : String}

/-- A domain and a subject are read when a valid scope writes them. -/
theorem parseScope_eq_some_iff :
    parseScope domain subject = some scope ↔
      scope.validate = .ok () ∧ scope.headerParts = (domain, subject) := by
  constructor
  · intro h
    unfold parseScope at h
    split at h
    · cases h
      exact ⟨rfl, rfl⟩
    · cases h
      exact ⟨rfl, rfl⟩
    · cases h
      exact ⟨rfl, rfl⟩
    · split at h
      · rename_i hhash
        cases h
        exact ⟨require_ok_iff.2 hhash, rfl⟩
      · cases h
    · cases h
  · rintro ⟨hvalid, hparts⟩
    obtain ⟨rfl, rfl⟩ := Prod.ext_iff.1 hparts
    rcases scope with _ | _ | _ | hash
    · rfl
    · rfl
    · rfl
    · have hhash : validHash hash 16 = true := require_ok_iff.1 hvalid
      have hne : hash ≠ "-" := by
        rintro rfl
        exact absurd hhash (by decide)
      rw [EvidenceScope.headerParts, parseScope, if_pos hhash]
      exact hne

/-- The domain and the subject of a valid scope are short fields. -/
structure ShortFields (parts : String × String) : Prop where
  domain : ' ' ∉ parts.1.toList
  subject : ' ' ∉ parts.2.toList
  bytes : parts.1.utf8ByteSize + parts.2.utf8ByteSize ≤ 24

theorem shortFields_headerParts (h : scope.validate = .ok ()) : ShortFields scope.headerParts := by
  rcases scope with _ | _ | _ | hash
  · exact ⟨by decide, by decide, by decide⟩
  · exact ⟨by decide, by decide, by decide⟩
  · exact ⟨by decide, by decide, by decide⟩
  · have hhash : validHash hash 16 = true := require_ok_iff.1 h
    simp only [validHash, Bool.and_eq_true, decide_eq_true_eq, List.all_eq_true] at hhash
    have hdomain : ' ' ∉ "contract".toList := by decide
    have hbytes : "contract".utf8ByteSize = 8 := by decide
    refine ⟨hdomain, fun hmem => absurd (hhash.2 ' ' hmem) (by decide), ?_⟩
    rw [EvidenceScope.headerParts, hbytes, hhash.1]

theorem space_not_mem_uint64Chars (sequence : UInt64) : ' ' ∉ uint64Chars sequence :=
  fun hmem => absurd (isDigit_of_mem_uint64Chars hmem) (by decide)

theorem framePrefix_toList : framePrefix.toList = frameMagic.toList ++ [' '] := by decide

/-- The first fields of a line with a header. -/
theorem splitN_headed (h : scope.validate = .ok ()) (rest : List Char) :
    (splitN ' ' 6 (headed scope sequence rest)).map String.ofList =
      frameMagic :: scope.headerParts.1 :: scope.headerParts.2 ::
        String.ofList (uint64Chars sequence) :: (splitN ' ' 2 rest).map String.ofList := by
  have hfields := shortFields_headerParts h
  have hmagic : ' ' ∉ frameMagic.toList := by decide
  rw [headed, framePrefix_toList, List.append_assoc, List.singleton_append,
    splitN_append 4 hmagic, splitN_append 3 hfields.domain, splitN_append 2 hfields.subject,
    splitN_append 1 (space_not_mem_uint64Chars sequence)]
  simp

theorem splitOn_headed (h : scope.validate = .ok ()) (rest : List Char) :
    (headed scope sequence rest).splitOn ' ' =
      frameMagic.toList :: scope.headerParts.1.toList :: scope.headerParts.2.toList ::
        uint64Chars sequence :: rest.splitOn ' ' := by
  have hfields := shortFields_headerParts h
  have hmagic : ' ' ∉ frameMagic.toList := by decide
  rw [headed, framePrefix_toList, List.append_assoc, List.singleton_append,
    List.splitOn_append_cons_self_of_not_mem hmagic,
    List.splitOn_append_cons_self_of_not_mem hfields.domain,
    List.splitOn_append_cons_self_of_not_mem hfields.subject,
    List.splitOn_append_cons_self_of_not_mem (space_not_mem_uint64Chars sequence)]

/-- The header is within the bytes that are read of a line that is too long. -/
theorem exists_boundedPrefix_headed (h : scope.validate = .ok ()) (rest : List Char) :
    ∃ more, boundedPrefix (headed scope sequence rest) maxHeaderBytes =
      headed scope sequence more := by
  have hstart : headed scope sequence [] <+: headed scope sequence rest := by
    refine ⟨rest, ?_⟩
    simp [headed]
  have hbytes : String.utf8Len (headed scope sequence []) ≤ maxHeaderBytes := by
    have hfields := (shortFields_headerParts h).bytes
    have hdigits := utf8Len_uint64Chars_le sequence
    have hmagic : String.utf8Len framePrefix.toList = 10 := by decide
    have hspace : ' '.utf8Size = 1 := by decide
    simp only [headed, String.utf8Len_append, String.utf8Len_cons, String.utf8Len_nil,
      String.utf8Len_toList, maxHeaderBytes, hmagic, hspace]
    omega
  obtain ⟨more, hmore⟩ := prefix_boundedPrefix hstart hbytes
  refine ⟨more, ?_⟩
  rw [← hmore]
  simp [headed]

theorem headerScope_headed (h : scope.validate = .ok ()) (rest : List Char) :
    headerScope (headed scope sequence rest) = some scope := by
  have hparse : parseScope scope.headerParts.1 scope.headerParts.2 = some scope :=
    parseScope_eq_some_iff.2 ⟨h, rfl⟩
  simp [headerScope, splitOn_headed h, hparse]

theorem headerSequence_headed (h : scope.validate = .ok ()) (rest : List Char) :
    headerSequence (headed scope sequence rest) = some sequence := by
  simp [headerSequence, splitOn_headed h, parseUInt64_chars]

end Headers

/-! ## Round trip -/

section Lines

variable {R : Renderings} {readJson : String → Option Json} {f : EventFrame}
  {scope : EvidenceScope} {sequence : UInt64}

/-- What the end of the decoder gives is valid, and has the scope and the sequence number. -/
theorem decodeFields_ok {runId eventJson : Option String}
    (h : decodeFields R readJson scope sequence runId eventJson = .ok f) :
    f.validate R = .ok () ∧ f.event.HasValues := by
  unfold decodeFields at h
  split at h
  · split at h
    · cases h
    split at h
    · cases h
    · rename_i hevent
      dsimp only at h
      split at h
      · cases h
      · rename_i hvalid
        cases h
        obtain ⟨value, -, hread⟩ := Option.bind_eq_some_iff.1 hevent
        exact ⟨scopedValidate_ok_iff.1 hvalid, hasValues_of_read hread⟩
  · cases h

theorem decodeFields_error {runId eventJson : Option String} {d : StreamDefect}
    (h : decodeFields R readJson scope sequence runId eventJson = .error d) :
    d.scope = scope ∧ d.sequence = some sequence := by
  unfold decodeFields at h
  split at h
  · split at h
    · cases h
      exact ⟨rfl, rfl⟩
    split at h
    · cases h
      exact ⟨rfl, rfl⟩
    · dsimp only at h
      split at h
      · rename_i hvalid
        cases h
        exact ⟨scope_of_scopedValidate hvalid, rfl⟩
      · cases h
  · cases h
    exact ⟨rfl, rfl⟩

/-- What is read of a line with a header, however long its rest is. -/
theorem decodeFrameLine_headed {line : String} {rest : List Char} (h : scope.validate = .ok ())
    (hline : line.toList = headed scope sequence rest) :
    decodeFrameLine R readJson line =
      if maxFrameBytes < line.utf8ByteSize then .error ⟨.frameTooLarge, scope, some sequence⟩
      else
        let parts := (splitN ' ' 2 rest).map String.ofList
        decodeFields R readJson scope sequence parts[0]? parts[1]? := by
  have hparse : parseScope scope.headerParts.1 scope.headerParts.2 = some scope :=
    parseScope_eq_some_iff.2 ⟨h, rfl⟩
  have hstart : framePrefix.toList.isPrefixOf (headed scope sequence rest) = true :=
    List.isPrefixOf_iff_prefix.2 (List.prefix_append _ _)
  obtain ⟨more, hmore⟩ : ∃ more, boundedPrefix (headed scope sequence rest) maxHeaderBytes =
      headed scope sequence more := exists_boundedPrefix_headed h rest
  rw [decodeFrameLine, hline, hmore, headerScope_headed h, headerSequence_headed h,
    splitN_headed h, hstart]
  simp [hparse, parseUInt64_chars]

/-- An encoded line is one of a valid frame, and it is not too long. -/
theorem encodeLine_ok {line : String} (h : f.encodeLine R = .ok line) :
    f.validate R = .ok () ∧
      line.toList = headed f.scope f.sequence (f.runId.toList ++ ' ' :: f.event.text R) ∧
      line.utf8ByteSize ≤ maxFrameBytes := by
  cases hvalid : f.scopedValidate R with
  | error e =>
    rw [EventFrame.encodeLine, hvalid] at h
    cases h
  | ok u =>
    rw [EventFrame.encodeLine, hvalid] at h
    simp only [bind, Except.bind] at h
    split at h
    · cases h
    · rename_i hsize
      cases h
      exact ⟨scopedValidate_ok_iff.1 hvalid, String.toList_ofList, not_lt.1 hsize⟩

/-- The decoder gives back the frame of an encoded line. -/
theorem decodeFrameLine_encodeLine {line : String} (hvalues : f.event.HasValues)
    (hreads : ReadsBack R readJson f) (h : f.encodeLine R = .ok line) :
    decodeFrameLine R readJson line = .ok f := by
  obtain ⟨hvalid, hline, hsize⟩ := encodeLine_ok h
  have hfields := both_ok_iff.1 hvalid
  have htoken : validateToken f.runId = .ok () := hfields.1
  have hscope : f.scope.validate = .ok () := (both_ok_iff.1 hfields.2).1
  have hrun : ' ' ∉ f.runId.toList :=
    fun hmem => absurd ((validateToken_ok_iff.1 htoken).2.2 ' ' hmem) (by decide)
  have hparts : (splitN ' ' 2 (f.runId.toList ++ ' ' :: f.event.text R)).map String.ofList =
      [f.runId, String.ofList (f.event.text R)] := by
    rw [splitN_append 0 hrun, splitN]
    simp
  have hread : Event.fromStr readJson (String.ofList (f.event.text R)) = some f.event := by
    rw [Event.fromStr, hreads, Option.bind_some, Event.read_declared hvalues]
  have hframe : (⟨f.runId, f.sequence, f.scope, f.event⟩ : EventFrame).scopedValidate R = .ok () :=
    scopedValidate_ok_iff.2 hvalid
  rw [decodeFrameLine_headed hscope hline, if_neg (not_lt.2 hsize), hparts]
  simp only [List.getElem?_cons_zero, List.getElem?_cons_succ, decodeFields, htoken, hread, hframe]

theorem decodeFrameLine_ok {line : String} (h : decodeFrameLine R readJson line = .ok f) :
    f.validate R = .ok () ∧ f.event.HasValues := by
  unfold decodeFrameLine at h
  dsimp only at h
  split at h
  · cases h
  split at h
  · cases h
  split at h
  · cases h
  split at h
  · cases h
  split at h
  · cases h
  · exact decodeFields_ok h

/-- A line that starts with a header: the domain and the subject of a valid scope and a
sequence number in decimal, each with one space after it. -/
structure HasHeader (line : String) (scope : EvidenceScope) (sequence : UInt64) : Prop where
  valid : scope.validate = .ok ()
  starts : ∃ rest, line.toList = headed scope sequence rest

/-- A line with a header is refused in the name of its scope and its sequence number. -/
theorem defect_of_hasHeader {line : String} {d : StreamDefect}
    (hheader : HasHeader line scope sequence) (h : decodeFrameLine R readJson line = .error d) :
    d.scope = scope ∧ d.sequence = some sequence := by
  obtain ⟨rest, hline⟩ := hheader.starts
  rw [decodeFrameLine_headed hheader.valid hline] at h
  split at h
  · cases h
    exact ⟨rfl, rfl⟩
  · exact decodeFields_error h

end Lines

/-- Frame lines round-trip.  An encoded line gives back its frame when the text of its event is
read back, a frame that was read is valid and is read again from its own line, and a line with
a header is refused in the name of that header alone. -/
theorem frame_lines_round_trip (R : Renderings) (readJson : String → Option Json) :
    (∀ f line, f.event.HasValues → ReadsBack R readJson f → f.encodeLine R = .ok line →
      decodeFrameLine R readJson line = .ok f) ∧
    (∀ line f, decodeFrameLine R readJson line = .ok f →
      f.validate R = .ok () ∧
        ∀ line', ReadsBack R readJson f → f.encodeLine R = .ok line' →
          decodeFrameLine R readJson line' = .ok f) ∧
    ∀ line scope sequence d, HasHeader line scope sequence →
      decodeFrameLine R readJson line = .error d →
        d.scope = scope ∧ d.sequence = some sequence := by
  refine ⟨fun f line => decodeFrameLine_encodeLine, fun line f h => ?_,
    fun line scope sequence d => defect_of_hasHeader⟩
  obtain ⟨hvalid, hvalues⟩ := decodeFrameLine_ok h
  exact ⟨hvalid, fun line' => decodeFrameLine_encodeLine hvalues⟩

/-- A frame of a contract. -/
def tapFrame : EventFrame where
  runId := "run-1"
  sequence := 7
  scope := .contract (some "0123456789abcdef")
  event := .action none "tap"

def noFloats : Renderings := ⟨fun _ => "", fun _ => "", fun _ => ""⟩

/-- A reader that knows one text. -/
def readTap (text : String) : Option Json :=
  if text = String.ofList (tapFrame.event.text noFloats) then some tapFrame.event.declared else none

theorem frame_lines_round_trip_tap :
    (∃ line, tapFrame.encodeLine noFloats = .ok line ∧
      decodeFrameLine noFloats readTap line = .ok tapFrame ∧ tapFrame.validate noFloats = .ok ()) ∧
    ∀ d, decodeFrameLine noFloats readTap "REPROIT/1 contract 0123456789abcdef 7 é" = .error d →
      d.scope = .contract (some "0123456789abcdef") ∧ d.sequence = some 7 := by
  have htap := frame_lines_round_trip noFloats readTap
  constructor
  · have hok : (tapFrame.encodeLine noFloats).isOk = true := by decide
    cases hline : tapFrame.encodeLine noFloats with
    | error e =>
      rw [hline] at hok
      cases hok
    | ok line =>
      have hdecoded := htap.1 tapFrame line trivial (if_pos rfl) hline
      exact ⟨line, rfl, hdecoded, (htap.2.1 line tapFrame hdecoded).1⟩
  · exact fun d => htap.2.2 _ _ _ d ⟨by decide, ['é'], by decide⟩

end Protocol

end ReproitCloud
