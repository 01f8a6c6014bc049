import ReproitCloud.Contracts.Redaction
import ReproitCloud.Http.Request
import ReproitCloud.Lib.Base64
import ReproitCloud.Lib.Hex
import ReproitCloud.Lib.Runs
import ReproitCloud.Protocol.Checks

/-!
# Backend traces

A `BackendTrace` collects what a service does for one traced request: a start event, the
effects, and a return event.  Each event gets the next number of a counter that all traces
of the process share (`Tracing.issued`).  The counter has 64 bits.  A trace takes
`maxEvents` events, and a full one refuses the return event as it refuses any other.

* `backend_traces_well_formed`: in every run of a process that has not used up the numbers,
  a trace keeps its bound and its order, its header comes after the return event, and the
  return event is recorded exactly when the trace is not full.
* `trace_reaches_its_limits`: 255 effects leave no room for the return event, and the number
  after the last one is zero.
-/

namespace ReproitCloud

open Lib

/-! ## Objects of an event -/

/-- `Map::insert`. -/
def Context.insert (m : Context) (k : String) (v : Json) : Context := m.upsert k v fun _ => v

/-- `Map::extend`. -/
def Context.extend (m : Context) (rows : List (String × Json)) : Context :=
  rows.foldl (fun m r => m.insert r.1 r.2) m

/-- `Value::Object` of a map, which has its members by name. -/
def Context.toValue (m : Context) : Json :=
  .object (m.rows.insertionSort fun a b => a.1 ≤ b.1)

@[simp] theorem Context.get?_insert (m : Context) (k : String) (v : Json) (k' : String) :
    (m.insert k v).get? k' = if k' = k then some v else m.get? k' := by
  rw [insert, Table.get?_upsert]
  cases m.get? k <;> rfl

/-- What is not among the new members is as it was. -/
theorem Context.get?_extend {m : Context} {rows : List (String × Json)} {k : String}
    (h : k ∉ rows.map Prod.fst) : (m.extend rows).get? k = m.get? k := by
  induction rows generalizing m with
  | nil => rfl
  | cons r rows ih =>
    rw [List.map_cons, List.mem_cons, not_or] at h
    rw [extend, List.foldl_cons]
    exact (ih h.2).trans (by rw [get?_insert, if_neg h.1])

/-! ## Trace contexts -/

/-- `bounded`. -/
def bounded (value : String) (maximum : Nat) : Option String :=
  let value := trim value.toList
  if value ≠ [] ∧ value.length ≤ maximum then some (String.ofList value) else none

/-- `TraceContext`. -/
structure TraceContext where
  traceId : String
  actor : Option String
  actionIndex : UInt32

/-- `TraceContext::from_header_fn`. -/
def TraceContext.fromHeaderFn (get : String → Option String) : Option TraceContext :=
  (get "x-reproit-trace").bind fun traceId => (bounded traceId 128).map fun traceId =>
    { traceId := traceId
      actor := (get "x-reproit-actor").bind fun value => bounded value 32
      actionIndex := ((get "x-reproit-action").bind fun value => parseUInt32 value.toList).getD 0 }

/-- `Selection`. -/
structure Selection where
  schemaPath : String
  responsePath : String
  typeCondition : Option String

/-- The selection as its serialization has it. -/
def Selection.toValue (s : Selection) : Json :=
  .object ([("responsePath", .string s.responsePath), ("schemaPath", .string s.schemaPath)] ++
    s.typeCondition.toList.map fun condition => ("typeCondition", .string condition))

/-- `identity`, over SHA-256. -/
def Tracing.identity (sha256 : String → List UInt8) (value : String) : String :=
  String.ofList ("sha256:".toList ++ hexText ((sha256 value).take 12))

/-! ## Traces -/

/-- `MAX_EVENTS`. -/
def maxEvents : Nat := 256

/-- `MAX_HEADER_BYTES`. -/
def maxHeaderBytes : Nat := 60000

/-- `TraceError`. -/
inductive TraceError where
  | invalidOperation
  | alreadyFinished
  | tooManyEvents
  | headerTooLarge
deriving DecidableEq, Repr

/-- `EffectKind`. -/
inductive EffectKind where
  | read
  | write
  | delete
  | emit
  | call
deriving DecidableEq, Repr

/-- The serialization of a kind of effect. -/
def EffectKind.asStr : EffectKind → String
  | read => "read"
  | write => "write"
  | delete => "delete"
  | emit => "emit"
  | call => "call"

/-- `BackendTrace`. -/
structure BackendTrace where
  common : Context
  events : List Context
  finished : Bool

/-- A trace, and how many numbers `SEQUENCE` has given out in the process. -/
structure Tracing where
  trace : BackendTrace
  issued : Nat

/-- What `SEQUENCE` gives next: it starts at one and has 64 bits. -/
def nextSequence (issued : Nat) : UInt64 := UInt64.ofNat (issued + 1)

namespace Tracing

/-- `push`. -/
def push (s : Tracing) (kind : String) (fields : Context) : Except TraceError Tracing :=
  if maxEvents ≤ s.trace.events.length then .error .tooManyEvents
  else
    let sequence := Json.number (.int (nextSequence s.issued).toNat)
    let event := ((s.trace.common.insert "sequence" sequence).insert "kind" (.string kind)).extend
      fields.rows
    .ok { trace := { s.trace with events := s.trace.events ++ [event] }, issued := s.issued + 1 }

/-- `begin`, in a process that has given out some numbers. -/
def begin (sha256 : String → List UInt8) (issued : Nat) (context : TraceContext)
    (operation : String) (spanId tenant idempotencyKey : Option String) (input : Json)
    (selections : List Selection) : Except TraceError Tracing :=
  match bounded operation 256 with
  | none => .error .invalidOperation
  | some operation =>
    match bounded (spanId.getD (context.traceId ++ ":" ++ operation)) 128 with
    | none => .error .invalidOperation
    | some spanId =>
      let common := Context.extend Table.empty
        ([("traceId", .string context.traceId), ("spanId", .string spanId),
          ("actionIndex", .number (.int context.actionIndex.toNat)),
          ("operation", .string operation)] ++
          context.actor.toList.map (fun actor => ("actor", .string actor)) ++
          (tenant.bind fun value => bounded value 128).toList.map
            (fun tenant => ("tenant", .string tenant)) ++
          idempotencyKey.toList.map
            (fun key => ("idempotencyKey", .string (identity sha256 key))) ++
          if selections = [] then []
          else [("selections", .array ((selections.take maxEvents).map Selection.toValue))])
      let trace : BackendTrace := { common := common, events := [], finished := false }
      push { trace := trace, issued := issued } "start"
        (Context.extend Table.empty [("input", redact input)])

/-- The members of an effect event. -/
def effectFields (effect : EffectKind) (resource key tenant event : Option String)
    (detail : Option Json) : Context :=
  let named := [("resource", resource), ("key", key), ("effectTenant", tenant), ("event", event)]
  let fields := Context.extend Table.empty (("effect", .string effect.asStr) ::
    named.filterMap fun r => r.2.map fun value =>
      (r.1, .string (String.ofList (value.toList.take 256))))
  match detail.map redact with
  | some (.object detail) =>
    fields.extend (detail.filter fun r => r.1 = "before" || r.1 = "after" || r.1 = "payload")
  | _ => fields

/-- `effect`. -/
def effect (s : Tracing) (effect : EffectKind) (resource key tenant event : Option String)
    (detail : Option Json) : Except TraceError Tracing :=
  if s.trace.finished then .error .alreadyFinished
  else s.push "effect" (effectFields effect resource key tenant event detail)

/-- The members of a return event. -/
def returnFields (output : Json) (status : UInt16) (success effectsComplete : Bool) : Context :=
  Context.extend Table.empty [("output", redact output), ("status", .number (.int status.toNat)),
    ("success", .bool success), ("effectsComplete", .bool effectsComplete)]

/-- `finish`. -/
def finish (s : Tracing) (output : Json) (status : UInt16) (success effectsComplete : Bool) :
    Except TraceError Tracing :=
  if s.trace.finished then .error .alreadyFinished
  else (s.push "return" (returnFields output status success effectsComplete)).map fun t =>
    { t with trace := { t.trace with finished := true } }

/-- `header`. -/
def header (R : Renderings) (s : Tracing) : Except TraceError (List Char) :=
  if !s.trace.finished then .error .alreadyFinished
  else
    let json := Protocol.toVec R (.array (s.trace.events.map Context.toValue))
    let encoded := base64Encode (json.flatMap String.utf8EncodeChar)
    if encoded.length ≤ maxHeaderBytes then .ok encoded else .error .headerTooLarge

end Tracing

/-! ## What an event says -/

/-- The kind of an event. -/
def kindOf (e : Context) : Option String := (e.get? "kind").bind Json.asStr

/-- The number of an event. -/
def sequenceOf (e : Context) : Option Int :=
  match e.get? "sequence" with
  | some (.number (.int n)) => some n
  | _ => none

/-- The members leave the kind and the number of an event alone. -/
def Unreserved (fields : Context) : Prop :=
  fields.get? "kind" = none ∧ fields.get? "sequence" = none

theorem not_mem_keys_of_get?_eq_none {m : Context} {k : String} (h : m.get? k = none) :
    k ∉ m.rows.map Prod.fst := by
  intro hk
  obtain ⟨⟨k', v⟩, hmem, rfl⟩ := List.mem_map.1 hk
  exact Table.get?_eq_none_iff.1 h v hmem

theorem get?_extend_empty {rows : List (String × Json)} {k : String}
    (h : k ∉ rows.map Prod.fst) : (Context.extend Table.empty rows).get? k = none := by
  rw [Context.get?_extend h, Table.get?_empty]

theorem unreserved_input (input : Json) :
    Unreserved (Context.extend Table.empty [("input", input)]) :=
  ⟨get?_extend_empty (by simp), get?_extend_empty (by simp)⟩

theorem unreserved_returnFields (output : Json) (status : UInt16) (success effectsComplete : Bool) :
    Unreserved (Tracing.returnFields output status success effectsComplete) :=
  ⟨get?_extend_empty (by simp), get?_extend_empty (by simp)⟩

theorem unreserved_effectFields (effect : EffectKind) (resource key tenant event : Option String)
    (detail : Option Json) :
    Unreserved (Tracing.effectFields effect resource key tenant event detail) := by
  have hnamed : ∀ k, k ∉ ["effect", "resource", "key", "effectTenant", "event"] →
      (Context.extend Table.empty (("effect", .string effect.asStr) ::
        [("resource", resource), ("key", key), ("effectTenant", tenant), ("event", event)].filterMap
          fun r => r.2.map fun value =>
            (r.1, Json.string (String.ofList (value.toList.take 256))))).get? k = none := by
    intro k hk
    refine get?_extend_empty fun hmem => hk ?_
    rw [List.map_cons, List.mem_cons] at hmem
    rcases hmem with rfl | hmem
    · exact List.mem_cons_self
    · obtain ⟨⟨k', v⟩, hrow, rfl⟩ := List.mem_map.1 hmem
      obtain ⟨⟨name, value⟩, hname, hvalue⟩ := List.mem_filterMap.1 hrow
      obtain ⟨text, -, hpair⟩ := Option.map_eq_some_iff.1 hvalue
      cases hpair
      refine List.mem_cons_of_mem _ ?_
      exact List.mem_map_of_mem (f := Prod.fst) hname
  have hdetail : ∀ k, k ∉ ["before", "after", "payload"] → ∀ rows : List (String × Json),
      k ∉ (rows.filter fun r =>
        r.1 = "before" || r.1 = "after" || r.1 = "payload").map Prod.fst := by
    intro k hk rows hmem
    obtain ⟨r, hr, rfl⟩ := List.mem_map.1 hmem
    have hname := (List.mem_filter.1 hr).2
    refine hk ?_
    simpa [or_assoc] using hname
  have hfields : ∀ k, k ∉ ["effect", "resource", "key", "effectTenant", "event"] →
      k ∉ ["before", "after", "payload"] →
      (Tracing.effectFields effect resource key tenant event detail).get? k = none := by
    intro k hk hk'
    unfold Tracing.effectFields
    dsimp only
    split
    · rw [Context.get?_extend (hdetail k hk' _)]
      exact hnamed k hk
    · exact hnamed k hk
  exact ⟨hfields "kind" (by simp) (by simp), hfields "sequence" (by simp) (by simp)⟩

/-- An event is added with its kind and with the next number, unless the trace is full. -/
theorem Tracing.push_eq_ok {s t : Tracing} {kind : String} {fields : Context}
    (hfields : Unreserved fields) (h : s.push kind fields = .ok t) :
    s.trace.events.length < maxEvents ∧ ∃ event, kindOf event = some kind ∧
      sequenceOf event = some ((nextSequence s.issued).toNat : Int) ∧
      t = { trace := { s.trace with events := s.trace.events ++ [event] }
            issued := s.issued + 1 } := by
  unfold Tracing.push at h
  split at h
  · cases h
  rename_i hroom
  cases h
  have hkind := not_mem_keys_of_get?_eq_none hfields.1
  have hsequence := not_mem_keys_of_get?_eq_none hfields.2
  refine ⟨Nat.lt_of_not_le hroom, _, ?_, ?_, rfl⟩
  · rw [kindOf, Context.get?_extend hkind, Context.get?_insert, if_pos rfl]
    rfl
  · rw [sequenceOf, Context.get?_extend hsequence, Context.get?_insert, if_neg (by decide),
      Context.get?_insert, if_pos rfl]

/-- A full trace takes nothing. -/
theorem Tracing.push_full {s : Tracing} (h : maxEvents ≤ s.trace.events.length) (kind : String)
    (fields : Context) : s.push kind fields = .error .tooManyEvents :=
  if_pos h

theorem Tracing.push_isOk {s : Tracing} (h : s.trace.events.length < maxEvents) (kind : String)
    (fields : Context) : ∃ t, s.push kind fields = .ok t :=
  ⟨_, if_neg (Nat.not_le_of_lt h)⟩

/-! ## Runs -/

/-- A call on the trace, or numbers that go to other traces of the process. -/
inductive TraceCall where
  | effect (effect : EffectKind) (resource key tenant event : Option String) (detail : Option Json)
  | finish (output : Json) (status : UInt16) (success effectsComplete : Bool)
  | others (count : Nat)

/-- What a call gives. -/
def TraceCall.result (s : Tracing) : TraceCall → Except TraceError Tracing
  | effect kind resource key tenant event detail => s.effect kind resource key tenant event detail
  | finish output status success effectsComplete => s.finish output status success effectsComplete
  | others count => .ok { s with issued := s.issued + count }

/-- A call that fails leaves the trace alone. -/
def Tracing.after (s : Tracing) (call : TraceCall) : Tracing :=
  match call.result s with
  | .ok t => t
  | .error _ => s

/-- The kinds of a trace's events: the start, the effects, and the return of a finished one. -/
def Kinds (t : BackendTrace) : Prop :=
  ∃ effects, t.events.map kindOf = some "start" ::
    (List.replicate effects (some "effect") ++ if t.finished then [some "return"] else [])

/-- The first event has an earlier number than the second, and both were given out. -/
def Before (issued : Nat) (a b : Context) : Prop :=
  ∃ j k, j < k ∧ k < issued ∧ sequenceOf a = some ((nextSequence j).toNat : Int) ∧
    sequenceOf b = some ((nextSequence k).toNat : Int)

/-- The event has a number that was given out. -/
def Numbered (issued : Nat) (e : Context) : Prop :=
  ∃ k < issued, sequenceOf e = some ((nextSequence k).toNat : Int)

/-- The trace keeps its bound, and its events have numbers in their order. -/
structure InOrder (s : Tracing) : Prop where
  room : s.trace.events.length ≤ maxEvents
  numbered : ∀ e ∈ s.trace.events, Numbered s.issued e
  ordered : s.trace.events.Pairwise (Before s.issued)

theorem Numbered.mono {m n : Nat} {e : Context} (hle : m ≤ n) : Numbered m e → Numbered n e := by
  rintro ⟨k, hk, he⟩
  exact ⟨k, hk.trans_le hle, he⟩

theorem Before.mono {m n : Nat} {a b : Context} (hle : m ≤ n) : Before m a b → Before n a b := by
  rintro ⟨j, k, hjk, hk, ha, hb⟩
  exact ⟨j, k, hjk, hk.trans_le hle, ha, hb⟩

/-- A new event keeps the bound and the order. -/
theorem InOrder.snoc {s : Tracing} (h : InOrder s) (hroom : s.trace.events.length < maxEvents)
    {event : Context} (hevent : sequenceOf event = some ((nextSequence s.issued).toNat : Int))
    {trace : BackendTrace} (hevents : trace.events = s.trace.events ++ [event]) :
    InOrder { trace := trace, issued := s.issued + 1 } where
  room := by
    change trace.events.length ≤ maxEvents
    rw [hevents, List.length_append]
    exact hroom
  numbered := by
    intro e he
    change e ∈ trace.events at he
    rw [hevents, List.mem_append, List.mem_singleton] at he
    rcases he with he | rfl
    · exact (h.numbered e he).mono (Nat.le_succ _)
    · exact ⟨s.issued, Nat.lt_succ_self _, hevent⟩
  ordered := by
    change trace.events.Pairwise _
    rw [hevents, List.pairwise_append]
    refine ⟨h.ordered.imp fun hab => hab.mono (Nat.le_succ _), List.pairwise_singleton _ _, ?_⟩
    intro a ha b hb
    rw [List.mem_singleton] at hb
    subst hb
    obtain ⟨j, hj, hja⟩ := h.numbered a ha
    exact ⟨j, s.issued, hj, Nat.lt_succ_self _, hja, hevent⟩

theorem InOrder.others {s : Tracing} (h : InOrder s) (count : Nat) :
    InOrder { s with issued := s.issued + count } where
  room := h.room
  numbered e he := (h.numbered e he).mono (Nat.le_add_right _ _)
  ordered := h.ordered.imp fun hab => hab.mono (Nat.le_add_right _ _)

/-- A trace begins with its start event. -/
theorem traceInv_begin {sha256 : String → List UInt8} {issued : Nat} {context : TraceContext}
    {operation : String} {spanId tenant idempotencyKey : Option String} {input : Json}
    {selections : List Selection} {s : Tracing}
    (h : Tracing.begin sha256 issued context operation spanId tenant idempotencyKey input
      selections = .ok s) : InOrder s ∧ Kinds s.trace := by
  unfold Tracing.begin at h
  split at h
  · cases h
  split at h
  · cases h
  obtain ⟨hroom, event, hkind, hsequence, rfl⟩ := Tracing.push_eq_ok (unreserved_input _) h
  refine ⟨InOrder.snoc ⟨Nat.zero_le _, ?_, List.Pairwise.nil⟩ hroom hsequence rfl, 0, ?_⟩
  · exact fun e he => absurd he List.not_mem_nil
  · change [kindOf event] = _
    rw [hkind]
    rfl

/-- An unfinished trace has its start and effects. -/
theorem Kinds.of_unfinished {t : BackendTrace} (h : Kinds t) (hunfinished : t.finished = false) :
    ∃ effects, t.events.map kindOf = some "start" :: List.replicate effects (some "effect") := by
  obtain ⟨effects, heffects⟩ := h
  exact ⟨effects, by simpa [hunfinished] using heffects⟩

/-- What a recorded effect does. -/
theorem Tracing.effect_eq_ok {s t : Tracing} {effect : EffectKind}
    {resource key tenant event : Option String} {detail : Option Json}
    (h : s.effect effect resource key tenant event detail = .ok t) :
    s.trace.finished = false ∧ s.trace.events.length < maxEvents ∧ ∃ added,
      kindOf added = some "effect" ∧ sequenceOf added = some ((nextSequence s.issued).toNat : Int) ∧
      t = { trace := { s.trace with events := s.trace.events ++ [added] }
            issued := s.issued + 1 } := by
  unfold Tracing.effect at h
  split at h
  · cases h
  rename_i hunfinished
  exact ⟨Bool.eq_false_iff.2 hunfinished, push_eq_ok (unreserved_effectFields _ _ _ _ _ _) h⟩

/-- What a recorded return does. -/
theorem Tracing.finish_eq_ok {s t : Tracing} {output : Json} {status : UInt16}
    {success effectsComplete : Bool} (h : s.finish output status success effectsComplete = .ok t) :
    s.trace.finished = false ∧ s.trace.events.length < maxEvents ∧ ∃ added,
      kindOf added = some "return" ∧ sequenceOf added = some ((nextSequence s.issued).toNat : Int) ∧
      t = { trace := { s.trace with events := s.trace.events ++ [added], finished := true }
            issued := s.issued + 1 } := by
  unfold Tracing.finish at h
  split at h
  · cases h
  rename_i hunfinished
  cases hpush : s.push "return" (returnFields output status success effectsComplete) with
  | error reason =>
    rw [hpush] at h
    cases h
  | ok pushed =>
    rw [hpush] at h
    cases h
    obtain ⟨hroom, added, hkind, hsequence, rfl⟩ :=
      push_eq_ok (unreserved_returnFields output status success effectsComplete) hpush
    exact ⟨Bool.eq_false_iff.2 hunfinished, hroom, added, hkind, hsequence, rfl⟩

/-- Every call keeps the order and the kinds. -/
theorem traceInv_after {s : Tracing} (h : InOrder s ∧ Kinds s.trace) (call : TraceCall) :
    InOrder (s.after call) ∧ Kinds (s.after call).trace := by
  obtain ⟨horder, hkinds⟩ := h
  unfold Tracing.after
  cases hresult : call.result s with
  | error reason => exact ⟨horder, hkinds⟩
  | ok t =>
    cases call with
    | effect kind resource key tenant event detail =>
      obtain ⟨hunfinished, hroom, added, hkind, hsequence, rfl⟩ := Tracing.effect_eq_ok hresult
      obtain ⟨effects, heffects⟩ := hkinds.of_unfinished hunfinished
      refine ⟨horder.snoc hroom hsequence rfl, effects + 1, ?_⟩
      simp [heffects, hkind, hunfinished, List.replicate_succ']
    | finish output status success effectsComplete =>
      obtain ⟨hunfinished, hroom, added, hkind, hsequence, rfl⟩ := Tracing.finish_eq_ok hresult
      obtain ⟨effects, heffects⟩ := hkinds.of_unfinished hunfinished
      refine ⟨horder.snoc hroom hsequence rfl, effects, ?_⟩
      simp [heffects, hkind]
    | others count =>
      cases hresult
      exact ⟨horder.others count, hkinds⟩

/-- A step of a process with a trace. -/
def TraceStep (s : Tracing) (call : TraceCall) (t : Tracing) : Prop := t = s.after call

theorem traceInv_run {s t : Tracing} {calls : List TraceCall} (h : InOrder s ∧ Kinds s.trace)
    (hrun : Run TraceStep s calls t) : InOrder t ∧ Kinds t.trace := by
  refine hrun.invariant (fun s => InOrder s ∧ Kinds s.trace) ?_ h
  rintro s call _ hinv rfl
  exact traceInv_after hinv call

/-! ## Well-formed traces -/

/-- The event is a return event. -/
def IsReturn (e : Context) : Prop := kindOf e = some "return"

/-- What a reader of a trace relies on. -/
structure BackendTrace.WellFormed (t : BackendTrace) : Prop where
  room : t.events.length ≤ maxEvents
  starts : t.events.head?.bind kindOf = some "start"
  returnOnce : (t.events.map kindOf).count (some "return") ≤ 1
  returnLast : ∀ i e, t.events[i]? = some e → IsReturn e → i + 1 = t.events.length
  increasing : t.events.Pairwise fun a b =>
    ∃ m n : Int, sequenceOf a = some m ∧ sequenceOf b = some n ∧ m < n

/-- The numbers of a process that has not used them up. -/
theorem toNat_nextSequence {k : Nat} (h : k + 1 < 2 ^ 64) : (nextSequence k).toNat = k + 1 := by
  rw [nextSequence, UInt64.toNat_ofNat']
  exact Nat.mod_eq_of_lt h

theorem Kinds.returnOnce {t : BackendTrace} (h : Kinds t) :
    (t.events.map kindOf).count (some "return") ≤ 1 := by
  obtain ⟨effects, heffects⟩ := h
  have hnone : (List.replicate effects (some "effect")).count (some "return") = 0 :=
    List.count_eq_zero.2 fun hmem => absurd (List.eq_of_mem_replicate hmem) (by decide)
  rw [heffects, List.count_cons, List.count_append, hnone]
  cases t.finished <;> simp

theorem Kinds.returnLast {t : BackendTrace} (h : Kinds t) {i : Nat} {e : Context}
    (hi : t.events[i]? = some e) (hreturn : IsReturn e) : i + 1 = t.events.length := by
  obtain ⟨effects, heffects⟩ := h
  have hkind : (t.events.map kindOf)[i]? = some (some "return") := by
    rw [List.getElem?_map, hi, Option.map_some, hreturn]
  have hlength := congrArg List.length heffects
  rw [List.length_map, List.length_cons, List.length_append, List.length_replicate] at hlength
  rw [heffects] at hkind
  cases i with
  | zero => simp at hkind
  | succ i =>
    rw [List.getElem?_cons_succ] at hkind
    by_cases heffect : i < effects
    · rw [List.getElem?_append_left (by simpa using heffect), List.getElem?_replicate] at hkind
      simp [heffect] at hkind
    · rw [List.getElem?_append_right (by simpa using heffect), List.length_replicate] at hkind
      cases hfinished : t.finished with
      | false => simp [hfinished] at hkind
      | true =>
        simp only [hfinished, if_true, List.getElem?_singleton] at hkind
        split at hkind
        · rename_i hzero
          simp only [hfinished, if_true, List.length_singleton] at hlength
          omega
        · cases hkind

/-- A trace in order is well-formed while there are numbers. -/
theorem wellFormed_of_inv {s : Tracing} (h : InOrder s ∧ Kinds s.trace) (hfew : s.issued < 2 ^ 64) :
    s.trace.WellFormed where
  room := h.1.room
  starts := by
    obtain ⟨effects, heffects⟩ := h.2
    cases hevents : s.trace.events with
    | nil => simp [hevents] at heffects
    | cons e rest =>
      rw [hevents, List.map_cons, List.cons.injEq] at heffects
      exact heffects.1
  returnOnce := h.2.returnOnce
  returnLast _ _ := h.2.returnLast
  increasing := by
    refine h.1.ordered.imp ?_
    rintro a b ⟨j, k, hjk, hk, ha, hb⟩
    refine ⟨_, _, ha, hb, ?_⟩
    rw [toNat_nextSequence (by omega), toNat_nextSequence (by omega)]
    omega

/-- The last event of a finished trace is its return event. -/
theorem Kinds.isReturn_getLast {t : BackendTrace} (h : Kinds t) (hfinished : t.finished = true) :
    ∃ e, t.events.getLast? = some e ∧ IsReturn e := by
  obtain ⟨effects, heffects⟩ := h
  rw [hfinished, if_pos rfl, ← List.cons_append] at heffects
  have hlast := congrArg List.getLast? heffects
  rw [List.getLast?_map, List.getLast?_concat] at hlast
  exact Option.map_eq_some_iff.1 hlast

theorem finished_of_header {R : Renderings} {s : Tracing} {encoded : List Char}
    (h : s.header R = .ok encoded) : s.trace.finished = true := by
  unfold Tracing.header at h
  split at h
  · cases h
  · rename_i hfinished
    simpa using hfinished

/-- A trace is finished by a call that finishes it. -/
theorem finish_mem_of_finished {s t : Tracing} {calls : List TraceCall}
    (hrun : Run TraceStep s calls t) (hunfinished : s.trace.finished = false)
    (hfinished : t.trace.finished = true) :
    ∃ output status success effectsComplete,
      TraceCall.finish output status success effectsComplete ∈ calls := by
  induction hrun with
  | nil s => simp [hunfinished] at hfinished
  | @cons s s' t call calls hstep hrest ih =>
    cases hstep
    cases hcall : (s.after call).trace.finished with
    | false =>
      obtain ⟨output, status, success, effectsComplete, hmem⟩ := ih hcall hfinished
      exact ⟨output, status, success, effectsComplete, List.mem_cons_of_mem _ hmem⟩
    | true =>
      unfold Tracing.after at hcall
      cases call with
      | finish output status success effectsComplete =>
        exact ⟨output, status, success, effectsComplete, List.mem_cons_self⟩
      | effect kind resource key tenant event detail =>
        cases hresult : (TraceCall.effect kind resource key tenant event detail).result s with
        | error reason => simp [hresult, hunfinished] at hcall
        | ok s' =>
          obtain ⟨-, -, added, -, -, rfl⟩ := Tracing.effect_eq_ok hresult
          simp [hresult, hunfinished] at hcall
      | others count => simp [TraceCall.result, hunfinished] at hcall

/-- A full trace takes no event. -/
theorem trace_after_full {s : Tracing} (hfull : s.trace.events.length = maxEvents)
    (hunfinished : s.trace.finished = false) (call : TraceCall) :
    (s.after call).trace = s.trace := by
  have hpush := fun kind fields => Tracing.push_full (Nat.le_of_eq hfull.symm) kind fields
  cases call with
  | effect kind resource key tenant event detail =>
    simp [Tracing.after, TraceCall.result, Tracing.effect, hunfinished, hpush]
  | finish output status success effectsComplete =>
    simp [Tracing.after, TraceCall.result, Tracing.finish, hunfinished, hpush, Except.map]
  | others count => rfl

/-- So it is never finished. -/
theorem trace_run_full {s t : Tracing} {calls : List TraceCall}
    (hfull : s.trace.events.length = maxEvents) (hunfinished : s.trace.finished = false)
    (hrun : Run TraceStep s calls t) : t.trace = s.trace := by
  refine hrun.invariant (fun t => t.trace = s.trace) ?_ rfl
  rintro t call _ htrace rfl
  rw [trace_after_full (by rw [htrace, hfull]) (by rw [htrace, hunfinished]), htrace]

/-- After any calls, in a process that has given out fewer than `2 ^ 64` numbers, a trace is
well-formed and its header comes after a finish.  A call that finishes an unfinished trace
records the return event when the trace is not full.  A full one refuses it, and then never
has a header. -/
theorem backend_traces_well_formed (R : Renderings) (sha256 : String → List UInt8) (issued : Nat)
    (context : TraceContext) (operation : String) (spanId tenant idempotencyKey : Option String)
    (input : Json) (selections : List Selection) {begun s : Tracing} {calls : List TraceCall}
    (hbegin : Tracing.begin sha256 issued context operation spanId tenant idempotencyKey input
      selections = .ok begun)
    (hrun : Run TraceStep begun calls s) (hfew : s.issued < 2 ^ 64) :
    s.trace.WellFormed ∧
      (∀ encoded, s.header R = .ok encoded →
        (∃ e, s.trace.events.getLast? = some e ∧ IsReturn e) ∧
        ∃ output status success effectsComplete,
          TraceCall.finish output status success effectsComplete ∈ calls) ∧
      (s.trace.finished = false → ∀ output status success effectsComplete,
        (s.trace.events.length < maxEvents → ∃ t e,
          s.finish output status success effectsComplete = .ok t ∧
          t.trace.events = s.trace.events ++ [e] ∧ IsReturn e ∧ t.trace.finished = true) ∧
        (s.trace.events.length = maxEvents →
          s.finish output status success effectsComplete = .error .tooManyEvents ∧
          ∀ later t, Run TraceStep s later t → t.trace = s.trace ∧
            t.header R = .error .alreadyFinished)) := by
  have hinv := traceInv_run (traceInv_begin hbegin) hrun
  have hopen : begun.trace.finished = false := by
    unfold Tracing.begin at hbegin
    split at hbegin
    · cases hbegin
    split at hbegin
    · cases hbegin
    obtain ⟨-, event, -, -, rfl⟩ := Tracing.push_eq_ok (unreserved_input _) hbegin
    rfl
  refine ⟨wellFormed_of_inv hinv hfew, fun encoded hheader => ?_,
    fun hunfinished output status success effectsComplete => ⟨fun hroom => ?_, fun hfull => ?_⟩⟩
  · have hfinished := finished_of_header hheader
    exact ⟨hinv.2.isReturn_getLast hfinished, finish_mem_of_finished hrun hopen hfinished⟩
  · obtain ⟨pushed, hpushed⟩ := Tracing.push_isOk hroom "return"
      (Tracing.returnFields output status success effectsComplete)
    have hresult : s.finish output status success effectsComplete =
        .ok { pushed with trace := { pushed.trace with finished := true } } := by
      rw [Tracing.finish, hunfinished, if_neg Bool.false_ne_true, hpushed]
      rfl
    obtain ⟨-, -, e, hkind, -, ht⟩ := Tracing.finish_eq_ok hresult
    exact ⟨_, e, hresult, by rw [ht], hkind, rfl⟩
  · have hpush := Tracing.push_full (Nat.le_of_eq hfull.symm)
    refine ⟨?_, fun later t hlater => ?_⟩
    · rw [Tracing.finish, hunfinished, if_neg Bool.false_ne_true, hpush]
      rfl
    · have htrace := trace_run_full hfull hunfinished hlater
      refine ⟨htrace, ?_⟩
      rw [Tracing.header, htrace, hunfinished]
      rfl

/-- A traced request. -/
def shopContext : TraceContext := ⟨"trace-a", some "alice", 7⟩

/-- The first trace of a process that has given out some numbers. -/
def shopTrace (issued : Nat) : Except TraceError Tracing :=
  Tracing.begin (fun _ => []) issued shopContext "createOrder" none none none .null []

/-- A plain effect. -/
def writeEffect : TraceCall := .effect .write (some "orders") none none none none

/-- A sequence of calls that finishes a trace. -/
def shopCalls : List TraceCall := [writeEffect, .others 4, .finish .null 201 true true]

theorem backend_traces_well_formed_shop :
    ∃ begun s, shopTrace 0 = .ok begun ∧ Run TraceStep begun shopCalls s ∧ s.trace.WellFormed := by
  refine ⟨_, _, rfl, .cons rfl (.cons rfl (.cons rfl (.nil _))), ?_⟩
  exact (backend_traces_well_formed ⟨fun _ => "", fun _ => "", fun _ => ""⟩ (fun _ => []) 0
    shopContext "createOrder" none none none .null [] rfl
    (.cons rfl (.cons rfl (.cons rfl (.nil _)))) (by decide)).1

/-- Effects fill an unfinished trace. -/
theorem exists_run_effects (n : Nat) {s : Tracing} (hunfinished : s.trace.finished = false)
    (hroom : s.trace.events.length + n ≤ maxEvents) :
    ∃ t, Run TraceStep s (List.replicate n writeEffect) t ∧ t.trace.finished = false ∧
      t.trace.events.length = s.trace.events.length + n := by
  induction n generalizing s with
  | zero => exact ⟨s, .nil s, hunfinished, rfl⟩
  | succ n ih =>
    obtain ⟨pushed, hpushed⟩ := Tracing.push_isOk (by omega : s.trace.events.length < maxEvents)
      "effect" (Tracing.effectFields .write (some "orders") none none none none)
    have hresult : writeEffect.result s = .ok pushed := by
      rw [writeEffect, TraceCall.result, Tracing.effect, hunfinished, if_neg Bool.false_ne_true,
        hpushed]
    have hafter : s.after writeEffect = pushed := by rw [Tracing.after, hresult]
    obtain ⟨-, -, e, -, -, ht⟩ := Tracing.effect_eq_ok hresult
    have hlength : pushed.trace.events.length = s.trace.events.length + 1 := by
      rw [ht, List.length_append]
      rfl
    obtain ⟨t, hrun, hopen, hcount⟩ := ih (s := pushed) (by rw [ht]; exact hunfinished) (by omega)
    exact ⟨t, .cons hafter.symm hrun, hopen, by omega⟩

/-- 255 effects leave no room for the return event, and the number after the last one is zero. -/
theorem trace_reaches_its_limits :
    (∃ begun s, shopTrace 0 = .ok begun ∧
      Run TraceStep begun (List.replicate 255 writeEffect) s ∧ s.trace.finished = false ∧
      s.finish .null 200 true true = .error .tooManyEvents) ∧
    ∃ begun s, shopTrace (2 ^ 64 - 2) = .ok begun ∧ Run TraceStep begun [writeEffect] s ∧
      s.trace.events.map sequenceOf = [some (2 ^ 64 - 1), some 0] := by
  constructor
  · obtain ⟨begun, hbegin, hopen, hone⟩ : ∃ begun, shopTrace 0 = .ok begun ∧
        begun.trace.finished = false ∧ begun.trace.events.length = 1 := ⟨_, rfl, rfl, rfl⟩
    obtain ⟨s, hrun, hunfinished, hlength⟩ := exists_run_effects 255 hopen (by rw [hone]; decide)
    refine ⟨begun, s, hbegin, hrun, hunfinished, ?_⟩
    rw [Tracing.finish, hunfinished, if_neg Bool.false_ne_true,
      Tracing.push_full (by rw [hlength, hone]; decide)]
    rfl
  · exact ⟨_, _, rfl, .cons rfl (.nil _), rfl⟩

end ReproitCloud
