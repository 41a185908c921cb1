/-
What a QMP reply comes to.

- `parseQmpEnvelope_return`, `parseQmpEnvelope_error`: the two shapes a reply has, whatever other keys it carries.
- `replies_unwrapped_iff`: a reply is unwrapped as it was sent exactly when it does not return null.
-/
import IoThreadController.Model.Qmp

namespace IoThreadController

open IoThreadController.Core (Json)

/-- no key stands twice -/
def DistinctKeys (members : Members) : Prop := (members.map Prod.fst).Nodup

instance (members : Members) : Decidable (DistinctKeys members) := inferInstanceAs (Decidable (List.Nodup _))

/-- a reply `{"return": value, ..}` -/
def ReturnReply (members : Members) (value : JsonValue) : Prop :=
  members.lookup "return" = some value ∧ members.lookup "error" = none

/-- a reply `{"error": {"class": .., "desc": .., ..}, ..}` -/
def ErrorReply (members : Members) (errorClass desc : String) : Prop :=
  ∃ err : Members, DistinctKeys err ∧ members.lookup "error" = some (.object err) ∧
    err.lookup "class" = some (.scalar (.string errorClass)) ∧ err.lookup "desc" = some (.scalar (.string desc))

/-! ## Fields -/

theorem readField_eq_lookup {members : Members} (h : DistinctKeys members) (key : String) :
    readField members key = some (members.lookup key) := by
  induction members with
  | nil => rfl
  | cons member members ih =>
    obtain ⟨key', value⟩ := member
    obtain ⟨hnew, hrest⟩ := List.nodup_cons.1 h
    by_cases hkey : key' = key
    · subst hkey
      have hnone : (members.filter fun member => member.1 = key') = [] := by
        refine List.filter_eq_nil_iff.2 fun member hmem hfst => hnew ?_
        exact List.mem_map.2 ⟨member, hmem, of_decide_eq_true hfst⟩
      have hfilter : (((key', value) :: members).filter fun member => member.1 = key') = [(key', value)] := by
        rw [List.filter_cons_of_pos (by simp), hnone]
      unfold readField
      rw [hfilter, List.lookup_cons_self]
      rfl
    · have hfilter : (((key', value) :: members).filter fun member => member.1 = key) =
          members.filter fun member => member.1 = key := List.filter_cons_of_neg (by simpa using hkey)
      have hlookup : ((key', value) :: members).lookup key = members.lookup key := by
        rw [List.lookup_cons, beq_eq_false_iff_ne.2 (Ne.symm hkey)]
      rw [hlookup, ← ih hrest]
      unfold readField
      rw [hfilter]

theorem read_errBody {err : Members} (h : DistinctKeys err) {errorClass desc : String}
    (hclass : err.lookup "class" = some (.scalar (.string errorClass)))
    (hdesc : err.lookup "desc" = some (.scalar (.string desc))) :
    ErrBody.read (.object err) = some ⟨errorClass, desc⟩ := by
  unfold ErrBody.read
  dsimp only
  rw [readField_eq_lookup h, readField_eq_lookup h, hclass, hdesc]
  rfl

theorem readOption_of_ne_null {α : Type} {read : JsonValue → Option α} {value : JsonValue} (h : value ≠ .null) :
    readOption read (some value) = (read value).map some := by
  cases value with
  | null => exact absurd rfl h
  | scalar value => rfl
  | array items => rfl
  | object members => rfl

theorem readOption_some (value : Option JsonValue) : ∃ ret, readOption some value = some ret := by
  rcases value with _ | value
  · exact ⟨none, rfl⟩
  · cases value <;> exact ⟨_, rfl⟩

/-! ## The two shapes -/

variable {json : SerdeJson} {body : String} {members : Members}

theorem envelope_return {value : JsonValue} (hkeys : DistinctKeys members) (h : ReturnReply members value)
    {ret : Option JsonValue} (hret : readOption some (some value) = some ret) :
    Envelope.read (.object members) = some ⟨ret, none⟩ := by
  unfold Envelope.read
  dsimp only
  rw [readField_eq_lookup hkeys, readField_eq_lookup hkeys, h.1, h.2]
  dsimp only [Option.bind_some]
  rw [hret]
  rfl

theorem envelope_error {errorClass desc : String} (hkeys : DistinctKeys members)
    (h : ErrorReply members errorClass desc) :
    ∃ ret, Envelope.read (.object members) = some ⟨ret, some ⟨errorClass, desc⟩⟩ := by
  obtain ⟨err, herr, hlookup, hclass, hdesc⟩ := h
  obtain ⟨ret, hret⟩ := readOption_some (members.lookup "return")
  refine ⟨ret, ?_⟩
  have herror : readOption ErrBody.read (some (.object err)) = some (some ⟨errorClass, desc⟩) := by
    rw [readOption_of_ne_null (by simp), read_errBody herr hclass hdesc]
    rfl
  unfold Envelope.read
  dsimp only
  rw [readField_eq_lookup hkeys, readField_eq_lookup hkeys, hlookup]
  dsimp only [Option.bind_some]
  rw [hret, herror]

/-- any value but null comes back as it was sent -/
theorem parseQmpEnvelope_return (hbody : json.parse body = some (.object members)) (hkeys : DistinctKeys members)
    (cmd : String) {value : JsonValue} (h : ReturnReply members value) (hvalue : value ≠ .null) :
    parseQmpEnvelope json cmd body = .ok value := by
  have hret : readOption some (some value) = some (some value) := readOption_of_ne_null hvalue
  unfold parseQmpEnvelope
  rw [hbody, Option.bind_some, envelope_return hkeys h hret]

/-- a null return is taken for no return -/
theorem parseQmpEnvelope_null (hbody : json.parse body = some (.object members)) (hkeys : DistinctKeys members)
    (cmd : String) (h : ReturnReply members .null) :
    parseQmpEnvelope json cmd body =
      .error (.parse ("qmp " ++ cmd ++ " response missing return/error: " ++ body)) := by
  unfold parseQmpEnvelope
  rw [hbody, Option.bind_some, envelope_return hkeys h rfl]

/-- an error comes back with its class and description, a return or not -/
theorem parseQmpEnvelope_error (hbody : json.parse body = some (.object members)) (hkeys : DistinctKeys members)
    (cmd : String) {errorClass desc : String} (h : ErrorReply members errorClass desc) :
    parseQmpEnvelope json cmd body = .error (.qmpError cmd errorClass desc) := by
  obtain ⟨ret, hread⟩ := envelope_error hkeys h
  unfold parseQmpEnvelope
  rw [hbody, Option.bind_some, hread]

/-! ## Replies -/

/-- both shapes are unwrapped, and a device without a mapping has the empty one -/
structure Unwrapped (json : SerdeJson) (body : String) (members : Members) : Prop where
  ret : ∀ cmd value, ReturnReply members value → parseQmpEnvelope json cmd body = .ok value
  error : ∀ cmd errorClass desc, ErrorReply members errorClass desc →
    parseQmpEnvelope json cmd body = .error (.qmpError cmd errorClass desc)
  mapping : ∀ (command : JsonValue → Except QemuError String) (devicePath : String), isBlank devicePath = false →
    command (QmpMonitor.request "qom-get" (some (QmpMonitor.mappingProperty devicePath))) = .ok body →
    ReturnReply members .null → (QmpMonitor.mk json command).queryVqMapping devicePath = .ok []

theorem replies_unwrapped_iff (hbody : json.parse body = some (.object members)) (hkeys : DistinctKeys members) :
    Unwrapped json body members ↔ ¬ ReturnReply members .null := by
  constructor
  · intro h hnull
    have hok := h.ret "" .null hnull
    rw [parseQmpEnvelope_null hbody hkeys "" hnull] at hok
    cases hok
  · intro hnull
    refine ⟨fun cmd value h => ?_, fun cmd errorClass desc => parseQmpEnvelope_error hbody hkeys cmd,
      fun _ _ _ _ h => absurd h hnull⟩
    refine parseQmpEnvelope_return hbody hkeys cmd h ?_
    rintro rfl
    exact hnull h

/-- a device whose mapping is null is reported as a malformed reply -/
theorem queryVqMapping_null {command : JsonValue → Except QemuError String} {devicePath : String}
    (hpath : isBlank devicePath = false)
    (hcommand : command (QmpMonitor.request "qom-get" (some (QmpMonitor.mappingProperty devicePath))) = .ok body)
    (hbody : json.parse body = some (.object members)) (hkeys : DistinctKeys members)
    (h : ReturnReply members .null) : (QmpMonitor.mk json command).queryVqMapping devicePath =
      .error (.parse ("qmp qom-get response missing return/error: " ++ body)) := by
  unfold QmpMonitor.queryVqMapping QmpMonitor.execute
  dsimp only
  rw [if_neg (by rw [hpath]; exact Bool.false_ne_true), hcommand]
  dsimp only
  rw [parseQmpEnvelope_null hbody hkeys "qom-get" h]
  rfl

/-! ## Two replies -/

def objectReply : String := "\x7b\"return\":\x7b\"foo\":42\x7d,\"id\":1\x7d"

def nullReply : String := "\x7b\"return\":null,\"id\":1\x7d"

/-- the JSON library on these two texts -/
def twoReplies : SerdeJson where
  parse text :=
    if text = objectReply then
      some (.object [("return", .object [("foo", .scalar (.number 42))]), ("id", .scalar (.number 1))])
    else if text = nullReply then some (.object [("return", .null), ("id", .scalar (.number 1))])
    else none
  message text := text
  mapping _ := .ok []

theorem object_reply_unwrapped : Unwrapped twoReplies objectReply
    [("return", .object [("foo", .scalar (.number 42))]), ("id", .scalar (.number 1))] := by
  have hbody : twoReplies.parse objectReply =
      some (.object [("return", .object [("foo", .scalar (.number 42))]), ("id", .scalar (.number 1))]) := rfl
  refine (replies_unwrapped_iff hbody (by decide)).2 ?_
  rintro ⟨h, -⟩
  cases h

theorem null_reply_refused :
    ¬ Unwrapped twoReplies nullReply [("return", .null), ("id", .scalar (.number 1))] := by
  intro h
  have hbody : twoReplies.parse nullReply = some (.object [("return", .null), ("id", .scalar (.number 1))]) :=
    rfl
  have hnull : ReturnReply [("return", .null), ("id", .scalar (.number 1))] .null := ⟨rfl, rfl⟩
  have hok := h.ret "qom-get" .null hnull
  rw [parseQmpEnvelope_null hbody (by decide) "qom-get" hnull] at hok
  cases hok

end IoThreadController
