import ReproitCloud.Telemetry.Buckets

/-!
# Reading an event

The event of a frame line is a JSON text, and `serde_json` reads it in two steps.  The text is
read into a buffer, which keeps every member of an object in its place, and the buffer is read
as an `Event`.  The first step is that of the library.  It is the parameter `readJson` of
`Event.fromStr`, which gives the buffer as a value that may have a name twice.  The second
follows from the types and their attributes, and `Event.read` is it.

* An event is tagged: a member `kind` names the variant, and the others are its fields
  (`tagged`).
* A field that is unknown or there twice is refused, and a missing one is none where its type
  is an option (`fieldsOf`).
* In a `Value` the last member of each name is kept (`asValue`).

An event is read back from the value it is written as (`Event.read_declared`).  The values
inside it are then those of the library, with each name once.  `Json` does not say this of
itself, so `Event.HasValues` does, and every event that was read has it (`hasValues_of_read`).
-/

namespace ReproitCloud

open Lib

namespace Protocol

/-! ## The text of an event -/

/-- An identity with its members in the order of their declaration, as
`serde_json::to_string` writes a structure. -/
def FindingIdentity.declared (i : FindingIdentity) : Json :=
  .object [("oracle", .string i.oracle), ("invariant", .string i.invariant),
    ("kind", .string i.kind), ("message", .string i.message), ("frame", .string i.frame),
    ("trigger", .string i.trigger), ("boundary", optionValue i.boundary)]

/-- The event as it is written. -/
def Event.declared : Event → Json
  | finding signature message identity path context =>
    .object [("kind", .string "finding"), ("signature", .string signature),
      ("message", .string message), ("identity", identity.declared),
      ("path", .array (path.map PathStep.toValue)), ("context", .object context.rows)]
  | e => e.toValue

/-- `serde_json::to_string` of an event. -/
def Event.text (R : Renderings) (e : Event) : List Char := toVec R e.declared

/-! ## The parts of a buffer -/

/-- The fields of a structure with `deny_unknown_fields`: an object that has them and no
other, each once, or an array with one item for each.  A missing option is null. -/
def fieldsOf (names options : List String) : Json → Option (List Json)
  | .object members =>
    if (members.map Prod.fst).Nodup ∧ ∀ m ∈ members, m.1 ∈ names then
      names.mapM fun name =>
        (members.lookup name).or (if name ∈ options then some .null else none)
    else none
  | .array items => if items.length = names.length then some items else none
  | _ => none

/-- The name of the variant under `serde(tag)`, and the rest.  In an array the name is the
first item. -/
def tagged (tag : String) : Json → Option (String × Json)
  | .object members =>
    match members.filter fun m => m.1 = tag with
    | [(_, .string name)] => some (name, .object (members.filter fun m => m.1 ≠ tag))
    | _ => none
  | .array (.string name :: items) => some (name, .array items)
  | _ => none

/-- The name of a variant without fields.  Under it in an object is nothing, which an empty
object is too. -/
def unitVariant : Json → Option String
  | .string name => some name
  | .object [(name, .null)] => some name
  | .object [(name, .object [])] => some name
  | _ => none

def ReasonCode.read (value : Json) : Option ReasonCode :=
  (unitVariant value).bind fun name => ReasonCode.names.lookup name

/-- A natural number below a bound.  A float is refused, whatever its value. -/
def natBelow (bound : Nat) : Json → Option Nat
  | .number (.int n) => if 0 ≤ n ∧ n < bound then some n.toNat else none
  | _ => none

def asUInt16 (value : Json) : Option UInt16 := (natBelow (2 ^ 16) value).map UInt16.ofNat

def asUInt64 (value : Json) : Option UInt64 := (natBelow (2 ^ 64) value).map UInt64.ofNat

/-- A `BTreeMap`, with the last value of each name. -/
def mapOf {α : Type} (item : Json → Option α) : Json → Option (Table String α)
  | .object members =>
    members.foldlM (fun t m => (item m.2).map fun v => t.upsert m.1 v fun _ => v) .empty
  | _ => none

mutual

/-- A `Value`, with the last member of each name in its objects. -/
def asValue : Json → Json
  | .null => .null
  | .bool b => .bool b
  | .number n => .number n
  | .string s => .string s
  | .array items => .array (itemValues items)
  | .object members => .object (memberValues members)

def itemValues : List Json → List Json
  | [] => []
  | item :: rest => asValue item :: itemValues rest

def memberValues : List (String × Json) → List (String × Json)
  | [] => []
  | (name, value) :: rest =>
    if name ∈ rest.map Prod.fst then memberValues rest
    else (name, asValue value) :: memberValues rest

end

/-! ## Events -/

def FindingIdentity.read (value : Json) : Option FindingIdentity := do
  match ← fieldsOf identityFields ["boundary"] value with
  | [oracle, invariant, kind, message, frame, trigger, boundary] =>
    return {
      oracle := ← oracle.asStr
      invariant := ← invariant.asStr
      kind := ← kind.asStr
      message := ← message.asStr
      frame := ← frame.asStr
      trigger := ← trigger.asStr
      boundary := ← nullableText boundary }
  | _ => none

def PathStep.read (value : Json) : Option PathStep := do
  match ← fieldsOf ["signature", "action", "label"] ["label"] value with
  | [signature, action, label] =>
    return ⟨← signature.asStr, ← action.asStr, ← nullableText label⟩
  | _ => none

def readAction (value : Json) : Option Event := do
  match ← fieldsOf ["actor", "action"] ["actor"] value with
  | [actor, action] => return .action (← nullableText actor) (← action.asStr)
  | _ => none

/-- `rename_all` is about the variants, so the fields keep their names. -/
def observationFields : List String :=
  ["actor", "state", "route", "visible_text", "counts", "oracle_signals", "network_statuses",
    "response_shapes"]

def readObservation (value : Json) : Option Event := do
  match ← fieldsOf observationFields ["actor", "state", "route"] value with
  | [actor, state, route, visibleText, counts, oracleSignals, networkStatuses, responseShapes] =>
    return .observation (← nullableText actor) (← nullableText state) (← nullableText route)
      (← listOf Json.asStr visibleText) (← mapOf asUInt64 counts)
      (← listOf Json.asStr oracleSignals) (← listOf asUInt16 networkStatuses)
      (← listOf Json.asStr responseShapes)
  | _ => none

def readBackend (value : Json) : Option Event := do
  match ← fieldsOf ["evidence"] [] value with
  | [evidence] => return .backend (asValue evidence)
  | _ => none

def readGraphEdge (value : Json) : Option Event := do
  match ← fieldsOf ["from", "action", "to"] [] value with
  | [from', action, to'] => return .graphEdge (← from'.asStr) (← action.asStr) (← to'.asStr)
  | _ => none

def readFinding (value : Json) : Option Event := do
  match ← fieldsOf ["signature", "message", "identity", "path", "context"] [] value with
  | [signature, message, identity, path, context] =>
    return .finding (← signature.asStr) (← message.asStr) (← FindingIdentity.read identity)
      (← listOf PathStep.read path) (← mapOf (fun v => some (asValue v)) context)
  | _ => none

def readStreamDefect (value : Json) : Option Event := do
  match ← fieldsOf ["reason"] [] value with
  | [reason] => return .streamDefect (← ReasonCode.read reason)
  | _ => none

/-- The variants, under the names that `rename_all = "kebab-case"` gives them. -/
def Event.readers : List (String × (Json → Option Event)) :=
  [("action", readAction), ("observation", readObservation), ("backend", readBackend),
    ("graph-edge", readGraphEdge), ("finding", readFinding), ("stream-defect", readStreamDefect)]

/-- An event from a buffer. -/
def Event.read (value : Json) : Option Event := do
  let (name, rest) ← tagged "kind" value
  (← Event.readers.lookup name) rest

/-- `serde_json::from_str` of an event, with the reader of a text into a buffer. -/
def Event.fromStr (readJson : String → Option Json) (text : String) : Option Event :=
  (readJson text).bind Event.read

/-- The values inside an event are values of the library. -/
def Event.HasValues : Event → Prop
  | backend evidence => asValue evidence = evidence
  | finding _ _ _ _ context => ∀ r ∈ context.rows, asValue r.2 = r.2
  | _ => True

/-! ## Reading what was written -/

section Parts

variable {α β : Type}

theorem mapM_of_forall₂ {f : α → Option β} {as : List α} {bs : List β}
    (h : List.Forall₂ (fun a b => f a = some b) as bs) : as.mapM f = some bs := by
  induction h with
  | nil => rfl
  | cons hhead _ ih =>
    rw [List.mapM_cons, hhead, ih]
    rfl

/-- An object with the fields in their order. -/
theorem fieldsOf_object {names options : List String} {members : List (String × Json)}
    (hnames : names.Nodup) (hkeys : members.map Prod.fst = names) :
    fieldsOf names options (.object members) = some (members.map Prod.snd) := by
  subst hkeys
  have hknown : ∀ m ∈ members, m.1 ∈ members.map Prod.fst := fun m hm => List.mem_map_of_mem hm
  rw [fieldsOf, if_pos ⟨hnames, hknown⟩]
  refine mapM_of_forall₂ ?_
  rw [List.forall₂_map_left_iff, List.forall₂_map_right_iff]
  refine List.forall₂_same.2 fun m hm => ?_
  rw [(Table.lookup_eq_some_iff hnames).2 hm, Option.some_or]

/-- An object that starts with its tag. -/
theorem tagged_object {tag name : String} {members : List (String × Json)}
    (hrest : tag ∉ members.map Prod.fst) :
    tagged tag (.object ((tag, .string name) :: members)) = some (name, .object members) := by
  have hne : ∀ m ∈ members, m.1 ≠ tag := fun m hm heq => hrest (heq ▸ List.mem_map_of_mem hm)
  have htag : members.filter (fun m => m.1 = tag) = [] := by
    rw [List.filter_eq_nil_iff]
    exact fun m hm => by simpa using hne m hm
  have hfields : members.filter (fun m => m.1 ≠ tag) = members := by
    rw [List.filter_eq_self]
    exact fun m hm => by simpa using hne m hm
  rw [tagged, List.filter_cons_of_pos (by simp), htag, List.filter_cons_of_neg (by simp), hfields]

theorem listOf_map (item : Json → Option α) (value : α → Json)
    (h : ∀ a, item (value a) = some a) (as : List α) :
    listOf item (.array (as.map value)) = some as := by
  refine mapM_of_forall₂ ?_
  rw [List.forall₂_map_left_iff]
  exact List.forall₂_same.2 fun a _ => h a

theorem listOf_stringsValue (texts : List String) :
    listOf Json.asStr (stringsValue texts) = some texts :=
  listOf_map Json.asStr .string (fun _ => rfl) texts

theorem nullableText_optionValue (text : Option String) :
    nullableText (optionValue text) = some text := by
  cases text <;> rfl

theorem natBelow_int {bound n : Nat} (h : n < bound) :
    natBelow bound (.number (.int n)) = some n := by
  rw [natBelow, if_pos ⟨Int.natCast_nonneg n, Int.ofNat_lt.2 h⟩, Int.toNat_natCast]

theorem asUInt64_toNat (n : UInt64) : asUInt64 (.number (.int n.toNat)) = some n := by
  rw [asUInt64, natBelow_int n.toNat_lt, Option.map_some, UInt64.ofNat_toNat]

theorem asUInt16_toNat (n : UInt16) : asUInt16 (.number (.int n.toNat)) = some n := by
  rw [asUInt16, natBelow_int n.toNat_lt, Option.map_some, UInt16.ofNat_toNat]

theorem reasonCode_read_asStr (reason : ReasonCode) :
    ReasonCode.read (.string reason.asStr) = some reason := by
  cases reason <;> rfl

/-- The members of a map come back as its rows. -/
theorem mapOf_rows (item : Json → Option α) (value : α → Json) (t : Table String α)
    (h : ∀ r ∈ t.rows, item (value r.2) = some r.2) :
    mapOf item (.object (t.rows.map fun r => (r.1, value r.2))) = some t := by
  -- The rows that were read stand before those that are still to come.
  have hfold : ∀ (rows : List (String × α)) (acc : Table String α)
      (hkeys : ((acc.rows ++ rows).map Prod.fst).Nodup),
      (∀ r ∈ rows, item (value r.2) = some r.2) →
      (rows.map fun r => (r.1, value r.2)).foldlM
        (fun t m => (item m.2).map fun v => t.upsert m.1 v fun _ => v) acc =
          some ⟨acc.rows ++ rows, hkeys⟩ := by
    intro rows
    induction rows with
    | nil =>
      intro acc hkeys _
      exact congrArg some (Table.ext_rows (List.append_nil _).symm)
    | cons r rows ih =>
      intro acc hkeys hitems
      have hfresh : acc.has r.1 = false := by
        rw [Table.has_eq_false_iff, Table.get?_eq_none_iff]
        intro v hv
        rw [List.map_append, List.map_cons, List.nodup_append] at hkeys
        exact hkeys.2.2 r.1 (List.mem_map.2 ⟨(r.1, v), hv, rfl⟩) r.1 List.mem_cons_self rfl
      have hupsert : acc.upsert r.1 r.2 (fun _ => r.2) = acc.append r.1 r.2 hfresh :=
        dif_pos hfresh
      have happend : (acc.append r.1 r.2 hfresh).rows ++ rows = acc.rows ++ r :: rows :=
        List.append_cons .. |>.symm
      rw [List.map_cons, List.foldlM_cons, hitems r List.mem_cons_self, Option.map_some, hupsert]
      refine (ih _ (happend.symm ▸ hkeys) fun s hs => hitems s (List.mem_cons_of_mem _ hs)).trans ?_
      exact congrArg some (Table.ext_rows happend)
  exact hfold t.rows .empty t.keys_nodup h

end Parts

/-! ## Events that were written -/

theorem findingIdentity_read_declared (i : FindingIdentity) :
    FindingIdentity.read i.declared = some i := by
  have hfields : fieldsOf identityFields ["boundary"] i.declared =
      some [.string i.oracle, .string i.invariant, .string i.kind, .string i.message,
        .string i.frame, .string i.trigger, optionValue i.boundary] :=
    fieldsOf_object (by decide) rfl
  simp [FindingIdentity.read, hfields, Json.asStr, nullableText_optionValue]

theorem pathStep_read_toValue (s : PathStep) : PathStep.read s.toValue = some s := by
  have hfields : fieldsOf ["signature", "action", "label"] ["label"] s.toValue =
      some [.string s.signature, .string s.action, optionValue s.label] :=
    fieldsOf_object (by decide) rfl
  simp [PathStep.read, hfields, Json.asStr, nullableText_optionValue]

theorem readAction_object (actor : Option String) (label : String) :
    readAction (.object [("actor", optionValue actor), ("action", .string label)]) =
      some (.action actor label) := by
  have hfields : fieldsOf ["actor", "action"] ["actor"]
      (.object [("actor", optionValue actor), ("action", .string label)]) =
        some [optionValue actor, .string label] := fieldsOf_object (by decide) rfl
  simp [readAction, hfields, Json.asStr, nullableText_optionValue]

theorem readObservation_object (actor state route : Option String) (visibleText : List String)
    (counts : Table String UInt64) (oracleSignals : List String) (networkStatuses : List UInt16)
    (responseShapes : List String) :
    readObservation (.object [("actor", optionValue actor), ("state", optionValue state),
      ("route", optionValue route), ("visible_text", stringsValue visibleText),
      ("counts", .object (counts.rows.map fun r => (r.1, .number (.int r.2.toNat)))),
      ("oracle_signals", stringsValue oracleSignals),
      ("network_statuses", .array (networkStatuses.map fun n => .number (.int n.toNat))),
      ("response_shapes", stringsValue responseShapes)]) =
    some (.observation actor state route visibleText counts oracleSignals networkStatuses
      responseShapes) := by
  have hcounts : mapOf asUInt64 (.object (counts.rows.map fun r =>
      (r.1, .number (.int r.2.toNat)))) = some counts :=
    mapOf_rows asUInt64 (fun n => .number (.int n.toNat)) counts fun r _ => asUInt64_toNat r.2
  have hstatuses : listOf asUInt16 (.array (networkStatuses.map fun n =>
      .number (.int n.toNat))) = some networkStatuses :=
    listOf_map asUInt16 (fun n => .number (.int n.toNat)) asUInt16_toNat networkStatuses
  have hfields : fieldsOf observationFields ["actor", "state", "route"]
      (.object [("actor", optionValue actor), ("state", optionValue state),
        ("route", optionValue route), ("visible_text", stringsValue visibleText),
        ("counts", .object (counts.rows.map fun r => (r.1, .number (.int r.2.toNat)))),
        ("oracle_signals", stringsValue oracleSignals),
        ("network_statuses", .array (networkStatuses.map fun n => .number (.int n.toNat))),
        ("response_shapes", stringsValue responseShapes)]) =
      some [optionValue actor, optionValue state, optionValue route, stringsValue visibleText,
        .object (counts.rows.map fun r => (r.1, .number (.int r.2.toNat))),
        stringsValue oracleSignals, .array (networkStatuses.map fun n => .number (.int n.toNat)),
        stringsValue responseShapes] := fieldsOf_object (by decide) rfl
  simp [readObservation, hfields, hcounts, hstatuses, listOf_stringsValue,
    nullableText_optionValue]

theorem readBackend_object {evidence : Json} (h : asValue evidence = evidence) :
    readBackend (.object [("evidence", evidence)]) = some (.backend evidence) := by
  have hfields : fieldsOf ["evidence"] [] (.object [("evidence", evidence)]) = some [evidence] :=
    fieldsOf_object (by decide) rfl
  simp [readBackend, hfields, h]

theorem readGraphEdge_object (from' label to' : String) :
    readGraphEdge (.object [("from", .string from'), ("action", .string label),
      ("to", .string to')]) = some (.graphEdge from' label to') := by
  have hfields : fieldsOf ["from", "action", "to"] []
      (.object [("from", .string from'), ("action", .string label), ("to", .string to')]) =
        some [.string from', .string label, .string to'] := fieldsOf_object (by decide) rfl
  simp [readGraphEdge, hfields, Json.asStr]

theorem readFinding_object (signature message : String) (identity : FindingIdentity)
    (path : List PathStep) {context : Context} (h : ∀ r ∈ context.rows, asValue r.2 = r.2) :
    readFinding (.object [("signature", .string signature), ("message", .string message),
      ("identity", identity.declared), ("path", .array (path.map PathStep.toValue)),
      ("context", .object context.rows)]) =
    some (.finding signature message identity path context) := by
  have hpath : listOf PathStep.read (.array (path.map PathStep.toValue)) = some path :=
    listOf_map PathStep.read PathStep.toValue pathStep_read_toValue path
  have hcontext : mapOf (fun v => some (asValue v)) (.object context.rows) = some context := by
    have hrows := mapOf_rows (fun v => some (asValue v)) id context fun r hr =>
      congrArg some (h r hr)
    rwa [List.map_id''] at hrows
    exact fun _ => rfl
  have hfields : fieldsOf ["signature", "message", "identity", "path", "context"] []
      (.object [("signature", .string signature), ("message", .string message),
        ("identity", identity.declared), ("path", .array (path.map PathStep.toValue)),
        ("context", .object context.rows)]) =
      some [.string signature, .string message, identity.declared,
        .array (path.map PathStep.toValue), .object context.rows] :=
    fieldsOf_object (by decide) rfl
  simp [readFinding, hfields, hpath, hcontext, Json.asStr, findingIdentity_read_declared]

theorem readStreamDefect_object (reason : ReasonCode) :
    readStreamDefect (.object [("reason", .string reason.asStr)]) =
      some (.streamDefect reason) := by
  have hfields : fieldsOf ["reason"] [] (.object [("reason", .string reason.asStr)]) =
      some [.string reason.asStr] := fieldsOf_object (by decide) rfl
  simp [readStreamDefect, hfields, reasonCode_read_asStr]

/-- The reader of a variant is found under the name it is written with. -/
theorem Event.read_object {name : String} {members : List (String × Json)}
    {reader : Json → Option Event} (names : List String)
    (hreader : Event.readers.lookup name = some reader)
    (hkeys : members.map Prod.fst = names) (hkind : "kind" ∉ names) :
    Event.read (.object (("kind", .string name) :: members)) = reader (.object members) := by
  subst hkeys
  simp [Event.read, tagged_object hkind, hreader]

/-- An event is read back from the value it is written as. -/
theorem Event.read_declared {e : Event} (h : e.HasValues) : Event.read e.declared = some e := by
  cases e with
  | action actor label =>
    exact (Event.read_object ["actor", "action"] rfl rfl (by decide)).trans
      (readAction_object actor label)
  | observation actor state route visibleText counts oracleSignals networkStatuses responseShapes =>
    exact (Event.read_object observationFields rfl rfl (by decide)).trans
      (readObservation_object actor state route visibleText counts oracleSignals networkStatuses
        responseShapes)
  | backend evidence =>
    exact (Event.read_object ["evidence"] rfl rfl (by decide)).trans (readBackend_object h)
  | graphEdge from' label to' =>
    exact (Event.read_object ["from", "action", "to"] rfl rfl (by decide)).trans
      (readGraphEdge_object from' label to')
  | finding signature message identity path context =>
    exact (Event.read_object ["signature", "message", "identity", "path", "context"] rfl rfl
      (by decide)).trans (readFinding_object signature message identity path h)
  | streamDefect reason =>
    exact (Event.read_object ["reason"] rfl rfl (by decide)).trans (readStreamDefect_object reason)

/-! ## Events that were read -/

theorem keys_memberValues_subset (members : List (String × Json)) :
    (memberValues members).map Prod.fst ⊆ members.map Prod.fst := by
  induction members with
  | nil => exact List.Subset.refl _
  | cons m members ih =>
    obtain ⟨name, value⟩ := m
    rw [memberValues]
    split
    · exact fun k hk => List.mem_cons_of_mem _ (ih hk)
    · exact List.cons_subset_cons _ ih

mutual

/-- A value of the library is read as it is. -/
theorem asValue_asValue : ∀ v : Json, asValue (asValue v) = asValue v
  | .null => rfl
  | .bool _ => rfl
  | .number _ => rfl
  | .string _ => rfl
  | .array items => by rw [asValue, asValue, itemValues_itemValues items]
  | .object members => by rw [asValue, asValue, memberValues_memberValues members]

theorem itemValues_itemValues : ∀ items : List Json,
    itemValues (itemValues items) = itemValues items
  | [] => rfl
  | item :: rest => by
    rw [itemValues, itemValues, asValue_asValue item, itemValues_itemValues rest]

theorem memberValues_memberValues : ∀ members : List (String × Json),
    memberValues (memberValues members) = memberValues members
  | [] => rfl
  | (name, value) :: rest => by
    rw [memberValues]
    split
    · exact memberValues_memberValues rest
    · rename_i hname
      rw [memberValues, if_neg fun hmem => hname (keys_memberValues_subset rest hmem),
        asValue_asValue value, memberValues_memberValues rest]

end

/-- The rows of a map are items that were read. -/
theorem exists_of_mapOf {α : Type} {item : Json → Option α} {value : Json} {t : Table String α}
    (h : mapOf item value = some t) : ∀ r ∈ t.rows, ∃ v, item v = some r.2 := by
  have hfold : ∀ (members : List (String × Json)) (acc t : Table String α),
      (∀ r ∈ acc.rows, ∃ v, item v = some r.2) →
      members.foldlM (fun t m => (item m.2).map fun v => t.upsert m.1 v fun _ => v) acc = some t →
      ∀ r ∈ t.rows, ∃ v, item v = some r.2 := by
    intro members
    induction members with
    | nil =>
      intro acc t hacc ht
      cases ht
      exact hacc
    | cons m members ih =>
      intro acc t hacc ht
      rw [List.foldlM_cons] at ht
      obtain ⟨acc', hstep, ht⟩ := Option.bind_eq_some_iff.1 ht
      obtain ⟨v, hv, rfl⟩ := Option.map_eq_some_iff.1 hstep
      refine ih _ t (fun r hr => ?_) ht
      have hrow := Table.get?_eq_some_iff.2 hr
      rw [Table.get?_upsert] at hrow
      split at hrow
      · have hlast : (acc.get? m.1).elim v (fun _ => v) = v := by cases acc.get? m.1 <;> rfl
        rw [hlast] at hrow
        exact ⟨m.2, hv.trans hrow⟩
      · exact hacc r (Table.get?_eq_some_iff.1 hrow)
  cases value with
  | object members => exact hfold members .empty t (fun r hr => nomatch hr) h
  | _ => cases h

section Read

variable {value : Json} {e : Event}

theorem hasValues_of_readAction (h : readAction value = some e) : e.HasValues := by
  simp only [readAction, Option.bind_eq_bind, Option.bind_eq_some_iff] at h
  obtain ⟨fields, -, h⟩ := h
  split at h
  · simp only [Option.bind_eq_some_iff] at h
    obtain ⟨actor, -, label, -, h⟩ := h
    cases h
    trivial
  · cases h

theorem hasValues_of_readObservation (h : readObservation value = some e) : e.HasValues := by
  simp only [readObservation, Option.bind_eq_bind, Option.bind_eq_some_iff] at h
  obtain ⟨fields, -, h⟩ := h
  split at h
  · simp only [Option.bind_eq_some_iff] at h
    obtain ⟨actor, -, state, -, route, -, visibleText, -, counts, -, oracleSignals, -,
      networkStatuses, -, responseShapes, -, h⟩ := h
    cases h
    trivial
  · cases h

theorem hasValues_of_readBackend (h : readBackend value = some e) : e.HasValues := by
  simp only [readBackend, Option.bind_eq_bind, Option.bind_eq_some_iff] at h
  obtain ⟨fields, -, h⟩ := h
  split at h
  · cases h
    exact asValue_asValue _
  · cases h

theorem hasValues_of_readGraphEdge (h : readGraphEdge value = some e) : e.HasValues := by
  simp only [readGraphEdge, Option.bind_eq_bind, Option.bind_eq_some_iff] at h
  obtain ⟨fields, -, h⟩ := h
  split at h
  · simp only [Option.bind_eq_some_iff] at h
    obtain ⟨from', -, label, -, to', -, h⟩ := h
    cases h
    trivial
  · cases h

theorem hasValues_of_readFinding (h : readFinding value = some e) : e.HasValues := by
  simp only [readFinding, Option.bind_eq_bind, Option.bind_eq_some_iff] at h
  obtain ⟨fields, -, h⟩ := h
  split at h
  · simp only [Option.bind_eq_some_iff] at h
    obtain ⟨signature, -, message, -, identity, -, path, -, context, hcontext, h⟩ := h
    cases h
    intro r hr
    obtain ⟨v, hv⟩ := exists_of_mapOf hcontext r hr
    rw [← Option.some.inj hv, asValue_asValue]
  · cases h

theorem hasValues_of_readStreamDefect (h : readStreamDefect value = some e) : e.HasValues := by
  simp only [readStreamDefect, Option.bind_eq_bind, Option.bind_eq_some_iff] at h
  obtain ⟨fields, -, h⟩ := h
  split at h
  · simp only [Option.bind_eq_some_iff] at h
    obtain ⟨reason, -, h⟩ := h
    cases h
    trivial
  · cases h

/-- The values inside an event that was read are values of the library. -/
theorem hasValues_of_read (h : Event.read value = some e) : e.HasValues := by
  simp only [Event.read, Option.bind_eq_bind, Option.bind_eq_some_iff] at h
  obtain ⟨⟨name, rest⟩, -, reader, hreader, hread⟩ := h
  have hmem : (name, reader) ∈ Event.readers := (Table.lookup_eq_some_iff (by decide)).1 hreader
  simp only [Event.readers, List.mem_cons, Prod.mk.injEq, List.not_mem_nil, or_false] at hmem
  rcases hmem with ⟨-, rfl⟩ | ⟨-, rfl⟩ | ⟨-, rfl⟩ | ⟨-, rfl⟩ | ⟨-, rfl⟩ | ⟨-, rfl⟩
  · exact hasValues_of_readAction hread
  · exact hasValues_of_readObservation hread
  · exact hasValues_of_readBackend hread
  · exact hasValues_of_readGraphEdge hread
  · exact hasValues_of_readFinding hread
  · exact hasValues_of_readStreamDefect hread

end Read

end Protocol

end ReproitCloud
