import PrismServe.Lib.Json
import PrismServe.World

/-!
# Exchanges with an inference worker

How the HTTP client turns what happened on the wire into a value or an
exception, and how the network client decodes the answer to the preparation of
a target request.  Only a transport error is reported as ambiguous; a response
that cannot be understood raises an ordinary exception.
-/

namespace PrismServe

abbrev JsonObject := List (String × Json)

/-- The object has exactly the given fields. -/
def hasFields (fields : List String) (object : JsonObject) : Bool :=
  fields.all (fun f => (object.lookup f).isSome) && object.all fun e => decide (e.1 ∈ fields)

namespace Json

/-- The values that `or` replaces. -/
def falsy : Json → Bool
  | null => true
  | bool b => !b
  | integer n => decide (n = 0)
  | number q => decide (q = 0)
  | nan => false
  | infinity _ => false
  | string s => s.isEmpty
  | array items => items.isEmpty
  | object fields => fields.isEmpty

/-- A method `get` is looked up; only objects have it. -/
def asObject : Json → Except Exc (List (String × Json))
  | object fields => .ok fields
  | _ => .error .other

def text? : Json → Option String
  | string s => some s
  | _ => none

/-- Values that cannot be members of a set or keys of a dictionary. -/
def unhashable : Json → Bool
  | array _ => true
  | object _ => true
  | _ => false

/-- The values that iterating over a value yields. -/
def iterate : Json → Except Exc (List Json)
  | array items => .ok items
  | string s => .ok (s.toList.map fun c => string (String.singleton c))
  | object fields => .ok (fields.map fun f => string f.1)
  | _ => .error (.type "object is not iterable")

/-- `int(value)`; texts are read by `parseInt`. -/
def toInt (parseInt : String → Option Int) : Json → Except Exc Int
  | integer n => .ok n
  | number q => .ok (if 0 ≤ q then q.floor else q.ceil)
  | bool b => .ok (if b then 1 else 0)
  | string s =>
    match parseInt s with
    | some n => .ok n
    | none => .error (.value "invalid literal for int()")
  | nan => .error (.value "cannot convert float NaN to integer")
  -- an `OverflowError`
  | infinity _ => .error .other
  | _ => .error (.type "int() argument must be a string or a number")

end Json

/-- The body of a response. -/
inductive Content
  /-- Its encoding is broken; reading the response raises already. -/
  | garbled
  /-- It is not a JSON document. -/
  | text
  | json (value : Json)

/-- What came of a request on the wire. -/
inductive HttpOutcome
  | transportError
  | cancelled
  /-- The last flag tells whether the correctness hook discards a success. -/
  | response (status : Nat) (content : Content) (discarded : Bool)

namespace HttpInferClient

/-- `_request`: the JSON object of a success, or the exception that is raised. -/
def request : HttpOutcome → Except Exc (List (String × Json))
  | .transportError => .error .ambiguous
  | .cancelled => .error .cancelled
  | .response _ .garbled _ => .error .other
  | .response status content discarded =>
    if 400 ≤ status then
      match content with
      -- the error body is read for its code and message
      | .json (.object _) => .error .inferRpc
      | .json _ => .error .other
      | _ => .error .inferRpc
    else
      match content with
      | .json (.object fields) => if discarded then .error .ambiguous else .ok fields
      | .json _ => .error .inferRpc
      | _ => .error (.value "response is not JSON")

end HttpInferClient

/-- `response.get("result") or {}`. -/
def resultOf (response : List (String × Json)) : Json :=
  match response.lookup "result" with
  | none => .object []
  | some value => if value.falsy then .object [] else value

/-- The block ids in the answer to the preparation of a target request. -/
def decodePrepared (parseInt : String → Option Int) (response : List (String × Json)) :
    Except Exc (List Int) := do
  let fields ← (resultOf response).asObject
  match fields.lookup "dst_block_ids" with
  | none => return []
  | some ids => do
      let values ← ids.iterate
      values.mapM (Json.toInt parseInt)

namespace HttpOutcome

/-- What the awaited call of `prepare_normal_request` comes back with. -/
def prepareReply (parseInt : String → Option Int) (o : HttpOutcome) : Reply :=
  match (do decodePrepared parseInt (← HttpInferClient.request o) : Except Exc (List Int)) with
  | .ok _ => .ok
  | .error e => .raised e

/-- The worker answered with an error status. -/
def explicitError : HttpOutcome → Bool
  | .response status _ _ => decide (400 ≤ status)
  | _ => false

/-- A success that cannot be understood. -/
def undecodable (parseInt : String → Option Int) : HttpOutcome → Bool
  | .response status content discarded =>
    decide (status < 400) &&
      match content with
      | .json (.object fields) => !discarded && !(decodePrepared parseInt fields).toBool
      | _ => true
  | _ => false

end HttpOutcome

/-! ## Classes of outcomes -/

section Classes

variable {parseInt : String → Option Int}

/-- An exception that the scheduling loop takes for a definitive failure. -/
def Exc.definitive (e : Exc) : Bool := e.isException && decide (e ≠ .ambiguous)

variable {e : Exc}

theorem Json.toInt_definitive {v : Json} (h : v.toInt parseInt = .error e) :
    e.definitive = true := by
  unfold Json.toInt at h
  split at h
  · cases h
  · cases h
  · cases h
  · split at h <;> cases h
    rfl
  · cases h
    rfl
  · cases h
    rfl
  · cases h
    rfl

/-- Where the exception of a sequence comes from. -/
theorem bind_eq_error {α β : Type} {x : Except Exc α} {f : α → Except Exc β}
    (h : x >>= f = .error e) : x = .error e ∨ ∃ a, x = .ok a ∧ f a = .error e := by
  cases x with
  | error e' =>
    cases h
    exact Or.inl rfl
  | ok a =>
    exact Or.inr ⟨a, rfl, h⟩

theorem mapM_toInt_definitive :
    ∀ {values : List Json}, values.mapM (Json.toInt parseInt) = .error e → e.definitive = true
  | [], h => by cases h
  | v :: rest, h => by
      rw [List.mapM_cons] at h
      rcases bind_eq_error h with hv | ⟨n, _, hrest⟩
      · exact Json.toInt_definitive hv
      · rcases bind_eq_error hrest with hrest | ⟨ns, _, hpure⟩
        · exact mapM_toInt_definitive hrest
        · cases hpure

theorem decodePrepared_definitive {response : List (String × Json)}
    (h : decodePrepared parseInt response = .error e) : e.definitive = true := by
  rcases bind_eq_error h with hobject | ⟨fields, _, hfields⟩
  · unfold Json.asObject at hobject
    split at hobject <;> cases hobject
    rfl
  · split at hfields
    · cases hfields
    rcases bind_eq_error hfields with hiterate | ⟨values, _, hvalues⟩
    · unfold Json.iterate at hiterate
      split at hiterate <;> cases hiterate
      rfl
    · exact mapM_toInt_definitive hvalues

namespace HttpOutcome

/-- A call that may have taken effect is answered, or it counts as ambiguous or cancelled. -/
inductive Replied (parseInt : String → Option Int) (o : HttpOutcome) : Reply → Prop
  | answered : Replied parseInt o .ok
  | ambiguous : Replied parseInt o (.raised .ambiguous)
  | cancelled : Replied parseInt o (.raised .cancelled)
  | failed {e : Exc} (hdefinitive : e.definitive = true)
      (hcause : o.explicitError = true ∨ o.undecodable parseInt = true) :
      Replied parseInt o (.raised e)

variable {o : HttpOutcome} {status : Nat}

theorem prepareReply_error {e : Exc} (h : HttpInferClient.request o = .error e) :
    o.prepareReply parseInt = .raised e := by
  simp [prepareReply, h, bind, Except.bind]

theorem prepareReply_ok {fields : List (String × Json)}
    (h : HttpInferClient.request o = .ok fields) :
    o.prepareReply parseInt =
      match decodePrepared parseInt fields with
      | .ok _ => .ok
      | .error e => .raised e := by
  simp only [prepareReply, h, bind, Except.bind]

/-- A success whose body is an object is decoded. -/
theorem prepareReply_object (hstatus : ¬ 400 ≤ status) (fields : List (String × Json)) :
    (response status (.json (.object fields)) false).prepareReply parseInt =
      match decodePrepared parseInt fields with
      | .ok _ => .ok
      | .error e => .raised e :=
  prepareReply_ok (by simp [HttpInferClient.request, hstatus])

theorem request_explicit (hstatus : 400 ≤ status) (content : Content) (discarded : Bool) :
    ∃ e, HttpInferClient.request (response status content discarded) = .error e ∧
      e.definitive = true := by
  rcases content with _ | _ | (_ | _ | _ | _ | _ | _ | _ | _) <;>
    simp [HttpInferClient.request, hstatus, Exc.definitive, Exc.isException]

/-- The body is a JSON object. -/
def objectOf : Content → Option (List (String × Json))
  | .json (.object fields) => some fields
  | _ => none

theorem request_opaque (hstatus : ¬ 400 ≤ status) {content : Content}
    (hcontent : objectOf content = none) (discarded : Bool) :
    ∃ e, HttpInferClient.request (response status content discarded) = .error e ∧
      e.definitive = true := by
  rcases content with _ | _ | (_ | _ | _ | _ | _ | _ | _ | _)
  case json.object => simp [objectOf] at hcontent
  all_goals simp [HttpInferClient.request, hstatus, Exc.definitive, Exc.isException]

theorem objectOf_eq {content : Content} {fields : List (String × Json)}
    (h : objectOf content = some fields) : content = .json (.object fields) := by
  unfold objectOf at h
  split at h <;> cases h
  rfl

theorem undecodable_response (parseInt : String → Option Int) (status : Nat) (content : Content)
    (discarded : Bool) :
    (response status content discarded).undecodable parseInt =
      (decide (status < 400) && match objectOf content with
        | some fields => !discarded && !(decodePrepared parseInt fields).toBool
        | none => true) := by
  rcases content with _ | _ | (_ | _ | _ | _ | _ | _ | _ | _) <;> rfl

theorem prepareReply_replied (parseInt : String → Option Int) (o : HttpOutcome) :
    Replied parseInt o (o.prepareReply parseInt) := by
  cases o with
  | transportError =>
    exact .ambiguous
  | cancelled =>
    exact .cancelled
  | response status content discarded =>
    by_cases hstatus : 400 ≤ status
    · obtain ⟨e, hrequest, hdefinitive⟩ := request_explicit hstatus content discarded
      rw [prepareReply_error hrequest]
      exact .failed hdefinitive (Or.inl (by simpa [explicitError] using hstatus))
    · have hlow : status < 400 := by omega
      cases hcontent : objectOf content with
      | none =>
        obtain ⟨e, hrequest, hdefinitive⟩ := request_opaque hstatus hcontent discarded
        rw [prepareReply_error hrequest]
        exact .failed hdefinitive (Or.inr (by simp [undecodable_response, hcontent, hlow]))
      | some fields =>
        have hdecodes := undecodable_response parseInt status content discarded
        rw [hcontent] at hdecodes
        obtain rfl := objectOf_eq hcontent
        cases discarded with
        | true =>
          rw [prepareReply_error (by simp only [HttpInferClient.request, if_neg hstatus]; rfl)]
          exact .ambiguous
        | false =>
          rw [prepareReply_object hstatus]
          cases hdecode : decodePrepared parseInt fields with
          | ok ids =>
            exact .answered
          | error e =>
            refine .failed (decodePrepared_definitive hdecode) (Or.inr ?_)
            simp [hdecodes, hlow, hdecode, Except.toBool]

theorem explicitError_of_undecodable (h : o.undecodable parseInt = true) :
    o.explicitError = false := by
  cases o with
  | response status content discarded =>
    rw [undecodable_response, Bool.and_eq_true, decide_eq_true_eq] at h
    simpa [explicitError] using h.1
  | _ =>
    cases h

theorem prepareReply_of_undecodable (h : o.undecodable parseInt = true) :
    ∃ e, o.prepareReply parseInt = .raised e ∧ e.definitive = true := by
  cases o with
  | response status content discarded =>
    rw [undecodable_response, Bool.and_eq_true, decide_eq_true_eq] at h
    obtain ⟨hlow, hbody⟩ := h
    have hstatus : ¬ 400 ≤ status := by omega
    cases hcontent : objectOf content with
    | none =>
      obtain ⟨e, hrequest, hdefinitive⟩ := request_opaque hstatus hcontent discarded
      exact ⟨e, prepareReply_error hrequest, hdefinitive⟩
    | some fields =>
      rw [hcontent] at hbody
      obtain rfl := objectOf_eq hcontent
      cases discarded with
      | true =>
        cases hbody
      | false =>
        cases hdecode : decodePrepared parseInt fields with
        | ok ids =>
          simp [hdecode, Except.toBool] at hbody
        | error e =>
          refine ⟨e, ?_, decodePrepared_definitive hdecode⟩
          rw [prepareReply_object hstatus, hdecode]
  | _ =>
    cases h

end HttpOutcome

end Classes

end PrismServe
