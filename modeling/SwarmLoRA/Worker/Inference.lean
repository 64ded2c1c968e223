import Mathlib.Data.Rat.Floor
import SwarmLoRA.Worker.Residence

namespace Worker

open Machine

/-- A float, exact where it is finite. -/
inductive PyFloat where
  | finite (value : ℚ)
  | inf (negative : Bool)
  | nan
  deriving DecidableEq

namespace PyFloat

def lt : PyFloat → PyFloat → Bool
  | .finite x, .finite y => x < y
  | .finite _, .inf negative => !negative
  | .inf negative, .finite _ => negative
  | .inf negative, .inf negative' => negative && !negative'
  | .nan, _ | _, .nan => false

/-- The first argument, unless the second one is less. -/
def min (x y : PyFloat) : PyFloat := if y.lt x then y else x

def max (x y : PyFloat) : PyFloat := if x.lt y then y else x

/-- `abs(now - x)`. -/
def distance (now : ℚ) : PyFloat → PyFloat
  | .finite x => .finite |now - x|
  | .inf _ => .inf false
  | .nan => .nan

end PyFloat

inductive PyError where
  | unsupported_media_type
  | bad_request
  | attribute_error
  | type_error
  | value_error
  | overflow_error
  deriving DecidableEq

inductive Json where
  | null
  | bool (b : Bool)
  | int (n : Int)
  | float (x : PyFloat)
  | str (s : String)
  | list (items : List Json)
  | dict (items : List (String × Json))

/-- What `request.get_json()` returns or raises. -/
abbrev Body := Except PyError Json

/-- How `int` and `float` read a string. -/
structure Literals where
  int_of_str : String → Option Int
  float_of_str : String → Option PyFloat

/-- The least integer that rounds to no float. -/
def float_limit : Int := 2 ^ 1024 - 2 ^ 970

namespace Json

def truthy : Json → Bool
  | .null => false
  | .bool b => b
  | .int n => n ≠ 0
  | .float x => x ≠ .finite 0
  | .str s => s ≠ ""
  | .list items => !items.isEmpty
  | .dict items => !items.isEmpty

variable (literals : Literals)

def to_int : Json → Except PyError Int
  | .bool b => .ok (if b then 1 else 0)
  | .int n => .ok n
  | .float (.finite x) => .ok (x.num.tdiv x.den)
  | .float (.inf _) => .error .overflow_error
  | .float .nan => .error .value_error
  | .str s => match literals.int_of_str s with
    | some n => .ok n
    | none => .error .value_error
  | .null | .list _ | .dict _ => .error .type_error

def to_float : Json → Except PyError PyFloat
  | .bool b => .ok (.finite (if b then 1 else 0))
  | .int n => if |n| < float_limit then .ok (.finite n) else .error .overflow_error
  | .float x => .ok x
  | .str s => match literals.float_of_str s with
    | some x => .ok x
    | none => .error .value_error
  | .null | .list _ | .dict _ => .error .type_error

/-- A time that is too far off counts as now, and so does what is no number. -/
def to_arrival_time (now : ℚ) : Json → Except PyError (Option PyFloat)
  | .null => .ok none
  | v => match v.to_float literals with
    | .ok time => .ok (some (if (PyFloat.finite 60).lt (time.distance now) then .finite now else time))
    | .error .type_error | .error .value_error => .ok (some (.finite now))
    | .error e => .error e

/-- The end of a prompt that is too long. A dictionary has a length and no slices. -/
def cut (limit : Nat) : Json → Except PyError Json
  | .str s => .ok (.str (String.ofList (s.toList.drop (s.length - limit))))
  | .list items => .ok (.list (items.drop (items.length - limit)))
  | .dict items => if limit < items.length then .error .type_error else .ok (.dict items)
  | .null | .bool _ | .int _ | .float _ => .error .type_error

end Json

structure InferenceRequest where
  prompt : Json
  max_tokens : Int
  do_sample : Bool
  temperature : PyFloat
  top_k : Int
  top_p : PyFloat
  submit_time : PyFloat
  slo_deadline_wall : Json

/-- `data.get`. -/
def field (data : List (String × Json)) (key : String) (default : Json) : Json :=
  (data.lookup key).getD default

/-- `request.get_json() or {}`, of which only a dictionary has fields. -/
def fields : Body → Except PyError (List (String × Json))
  | .error e => .error e
  | .ok v => if v.truthy then
      match v with
      | .dict items => .ok items
      | _ => .error .attribute_error
    else .ok []

/-- The request of a handler that has a permit, none where there is no prompt. -/
def inference_request (literals : Literals) (cfg : Config) (now : ℚ) (body : Body) :
    Except PyError (Option InferenceRequest) := do
  let data ← fields body
  let prompt := field data "prompt" (.str "")
  let max_tokens ← (field data "max_tokens" (.int 256)).to_int literals
  let do_sample := (field data "do_sample" (.bool false)).truthy
  let temperature ← (field data "temperature" (.float (.finite 1))).to_float literals
  let top_k ← (field data "top_k" (.int 0)).to_int literals
  let top_p ← (field data "top_p" (.float (.finite 1))).to_float literals
  let arrival_time ← (field data "arrival_time" .null).to_arrival_time literals now
  if prompt.truthy then
    let prompt ← prompt.cut (cfg.max_seq_len * 6)
    return some {
      prompt
      max_tokens := max 1 (min max_tokens cfg.max_seq_len)
      do_sample
      temperature := .max (.finite (1 / 100)) (.min temperature (.finite 100))
      top_k := max 0 (min top_k 100000)
      top_p := .max (.finite 0) (.min top_p (.finite 1))
      submit_time := arrival_time.getD (.finite now)
      slo_deadline_wall := field data "slo_deadline_wall" .null }
  else return none

section Condition

variable (literals : Literals)

/-- What `int` takes. -/
def Json.IntLike : Json → Prop
  | .bool _ | .int _ | .float (.finite _) => True
  | .str s => (literals.int_of_str s).isSome
  | _ => False

/-- What `float` takes. -/
def Json.FloatLike : Json → Prop
  | .bool _ | .float _ => True
  | .int n => |n| < float_limit
  | .str s => (literals.float_of_str s).isSome
  | _ => False

/-- What has a length, and slices where it is longer than the limit. -/
def Json.Sliceable (limit : Nat) : Json → Prop
  | .str _ | .list _ => True
  | .dict items => items.length ≤ limit
  | _ => False

/-- Fields that raise nothing. An arrival time is only converted under a `try` that does not
know of integers that are too large. -/
structure Convertible (cfg : Config) (data : List (String × Json)) : Prop where
  max_tokens : ∀ v, data.lookup "max_tokens" = some v → v.IntLike literals
  temperature : ∀ v, data.lookup "temperature" = some v → v.FloatLike literals
  top_k : ∀ v, data.lookup "top_k" = some v → v.IntLike literals
  top_p : ∀ v, data.lookup "top_p" = some v → v.FloatLike literals
  arrival_time : ∀ n, data.lookup "arrival_time" = some (.int n) → |n| < float_limit
  prompt : ∀ v, data.lookup "prompt" = some v → v.truthy → v.Sliceable (cfg.max_seq_len * 6)

/-- A body that is read without an exception: anything false, or an object of such fields. -/
def Readable (cfg : Config) : Body → Prop
  | .error _ => False
  | .ok (.dict data) => Convertible literals cfg data
  | .ok v => v.truthy = false

end Condition

/-- Nothing is raised. -/
def Succeeds {α : Type} (x : Except PyError α) : Prop := ∃ a, x = .ok a

section Reading

variable {literals : Literals} {cfg : Config} {now : ℚ} {data : List (String × Json)} {v : Json}
  {α β : Type}

/-- What follows succeeds under a condition that does not depend on the value. -/
theorem succeeds_bind {x : Except PyError α} {f : α → Except PyError β} {P : Prop}
    (hRest : ∀ a, Succeeds (f a) ↔ P) : Succeeds (x >>= f) ↔ Succeeds x ∧ P := by
  cases x with
  | error e => simp [Succeeds, bind, Except.bind]
  | ok a => simpa [Succeeds, bind, Except.bind] using hRest a

theorem succeeds_pure (a : α) : Succeeds (pure a) := ⟨a, rfl⟩

theorem not_succeeds_iff {x : Except PyError α} : ¬ Succeeds x ↔ ∃ e, x = .error e := by
  cases x with
  | error e => simp [Succeeds]
  | ok a => simp [Succeeds]

theorem succeeds_to_int : Succeeds (v.to_int literals) ↔ v.IntLike literals := by
  cases v with
  | float x => cases x <;> simp [Succeeds, Json.to_int, Json.IntLike]
  | str s => cases hRead : literals.int_of_str s <;> simp [Succeeds, Json.to_int, Json.IntLike, hRead]
  | _ => simp [Succeeds, Json.to_int, Json.IntLike]

theorem succeeds_to_float : Succeeds (v.to_float literals) ↔ v.FloatLike literals := by
  cases v with
  | int n => by_cases hSmall : |n| < float_limit <;> simp [Succeeds, Json.to_float, Json.FloatLike, hSmall]
  | str s => cases hRead : literals.float_of_str s <;> simp [Succeeds, Json.to_float, Json.FloatLike, hRead]
  | _ => simp [Succeeds, Json.to_float, Json.FloatLike]

theorem succeeds_to_arrival_time :
    Succeeds (v.to_arrival_time literals now) ↔ ∀ n, v = .int n → |n| < float_limit := by
  cases v with
  | int n =>
      by_cases hSmall : |n| < float_limit <;>
        simp [Succeeds, Json.to_arrival_time, Json.to_float, hSmall]
  | str s =>
      cases hRead : literals.float_of_str s <;>
        simp [Succeeds, Json.to_arrival_time, Json.to_float, hRead]
  | _ => simp [Succeeds, Json.to_arrival_time, Json.to_float]

theorem succeeds_cut {limit : Nat} : Succeeds (v.cut limit) ↔ v.Sliceable limit := by
  cases v with
  | dict items =>
      by_cases hLong : limit < items.length
      · simp [Succeeds, Json.cut, Json.Sliceable, hLong]
      · simp [Succeeds, Json.cut, Json.Sliceable, hLong, not_lt.mp hLong]
  | _ => simp [Succeeds, Json.cut, Json.Sliceable]

/-- What is so of a field is so of its default and of what the data have for it. -/
theorem field_iff {P : Json → Prop} {key : String} {default : Json} (hDefault : P default) :
    P (field data key default) ↔ ∀ v, data.lookup key = some v → P v := by
  unfold field
  cases data.lookup key with
  | none => simpa using hDefault
  | some v => simp

/-- After its dictionary has been found, the reading of a body depends on the fields alone. -/
theorem succeeds_inference_request_of_fields {body : Body} (hFields : fields body = .ok data) :
    Succeeds (inference_request literals cfg now body) ↔ Convertible literals cfg data := by
  have hChain : Succeeds (inference_request literals cfg now body) ↔
      (field data "max_tokens" (.int 256)).IntLike literals ∧
        (field data "temperature" (.float (.finite 1))).FloatLike literals ∧
          (field data "top_k" (.int 0)).IntLike literals ∧
            (field data "top_p" (.float (.finite 1))).FloatLike literals ∧
              (∀ n, field data "arrival_time" .null = .int n → |n| < float_limit) ∧
                ((field data "prompt" (.str "")).truthy →
                  (field data "prompt" (.str "")).Sliceable (cfg.max_seq_len * 6)) := by
    unfold inference_request
    rw [hFields, ← succeeds_to_int, ← succeeds_to_float, ← succeeds_to_int, ← succeeds_to_float,
      ← succeeds_to_arrival_time]
    refine succeeds_bind fun max_tokens => succeeds_bind fun temperature =>
      succeeds_bind fun top_k => succeeds_bind fun top_p => succeeds_bind fun arrival_time => ?_
    split
    next hPrompt =>
      rw [← succeeds_cut, succeeds_bind (P := True) fun prompt => iff_true_intro (succeeds_pure _)]
      simp [hPrompt]
    next hPrompt => simp [hPrompt, succeeds_pure]
  have hInt (key : String) (n : Int) : (field data key (.int n)).IntLike literals ↔
      ∀ v, data.lookup key = some v → v.IntLike literals := field_iff trivial
  have hFloat (key : String) (x : PyFloat) : (field data key (.float x)).FloatLike literals ↔
      ∀ v, data.lookup key = some v → v.FloatLike literals := field_iff trivial
  have hTime : (∀ n, field data "arrival_time" .null = .int n → |n| < float_limit) ↔
      ∀ v, data.lookup "arrival_time" = some v → ∀ n, v = .int n → |n| < float_limit :=
    field_iff (P := fun v => ∀ n, v = .int n → |n| < float_limit) nofun
  have hPrompt : ((field data "prompt" (.str "")).truthy →
      (field data "prompt" (.str "")).Sliceable (cfg.max_seq_len * 6)) ↔
      ∀ v, data.lookup "prompt" = some v → v.truthy → v.Sliceable (cfg.max_seq_len * 6) :=
    field_iff (P := fun v => v.truthy → v.Sliceable (cfg.max_seq_len * 6)) fun _ => trivial
  rw [hChain, hInt, hFloat, hInt, hFloat, hTime, hPrompt]
  constructor
  · rintro ⟨hTokens, hTemperature, hTopK, hTopP, hArrival, hPrompt⟩
    exact ⟨hTokens, hTemperature, hTopK, hTopP, fun n hField => hArrival _ hField n rfl, hPrompt⟩
  · intro h
    exact ⟨h.max_tokens, h.temperature, h.top_k, h.top_p,
      fun v hField n hInt => h.arrival_time n (hInt ▸ hField), h.prompt⟩

theorem convertible_nil : Convertible literals cfg [] :=
  ⟨nofun, nofun, nofun, nofun, nofun, nofun⟩

/-- A body is read without an exception exactly when it is readable. -/
theorem succeeds_inference_request {body : Body} :
    Succeeds (inference_request literals cfg now body) ↔ Readable literals cfg body := by
  cases body with
  | error e =>
      refine iff_of_false ?_ id
      exact not_succeeds_iff.mpr ⟨e, rfl⟩
  | ok v =>
      cases hTrue : v.truthy with
      | false =>
          have hFields : fields (.ok v) = .ok [] := by simp [fields, hTrue]
          refine (succeeds_inference_request_of_fields hFields).trans (iff_of_true convertible_nil ?_)
          cases v with
          | dict items =>
              obtain rfl : items = [] := by simpa [Json.truthy] using hTrue
              exact convertible_nil
          | _ => exact hTrue
      | true =>
          cases v with
          | dict items =>
              exact succeeds_inference_request_of_fields (by simp [fields, hTrue])
          | _ =>
              refine iff_of_false (not_succeeds_iff.mpr ⟨.attribute_error, ?_⟩) (by simp [Readable, hTrue])
              simp [inference_request, fields, hTrue, bind, Except.bind]

end Reading

end Worker
