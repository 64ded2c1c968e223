import SwarmLoRA.Worker.Wire

namespace Worker.Wire

open Data

section Except

variable {ε α β : Type} {x : Except ε α}

theorem bind_ok_iff {f : α → Except ε β} {b : β} :
    (x >>= f) = .ok b ↔ ∃ a, x = .ok a ∧ f a = .ok b := by
  cases x with
  | error e =>
      constructor
      · intro h
        cases h
      · rintro ⟨a, hFail, _⟩
        cases hFail
  | ok a =>
      constructor
      · intro h
        exact ⟨a, rfl, h⟩
      · rintro ⟨a', hSame, h⟩
        cases hSame
        exact h

theorem map_ok_iff {f : α → β} {b : β} : x.map f = .ok b ↔ ∃ a, x = .ok a ∧ f a = b := by
  cases x with
  | error e =>
      constructor
      · intro h
        cases h
      · rintro ⟨a, hFail, _⟩
        cases hFail
  | ok a =>
      constructor
      · intro h
        exact ⟨a, rfl, Except.ok.inj h⟩
      · rintro ⟨a', hSame, rfl⟩
        cases hSame
        rfl

end Except

namespace Value

mutual

/-- The value with every tuple read as a list. -/
def listed : Value → Value
  | .list items | .tuple items => .list (listed_items items)
  | .dict entries => .dict (listed_entries entries)
  | v => v

def listed_items : List Value → List Value
  | [] => []
  | v :: rest => v.listed :: listed_items rest

def listed_entries : List (String × Value) → List (String × Value)
  | [] => []
  | (key, v) :: rest => (key, v.listed) :: listed_entries rest

end

mutual

/-- No bytes in a tuple, and no dictionary with the marker for its only key. -/
def plain (in_tuple : Bool) : Value → Bool
  | .bytes _ => !in_tuple
  | .list items => plain_items in_tuple items
  | .tuple items => plain_items true items
  | .dict entries => (marked entries).isNone && plain_entries in_tuple entries
  | _ => true

def plain_items (in_tuple : Bool) : List Value → Bool
  | [] => true
  | v :: rest => v.plain in_tuple && plain_items in_tuple rest

def plain_entries (in_tuple : Bool) : List (String × Value) → Bool
  | [] => true
  | (_, v) :: rest => v.plain in_tuple && plain_entries in_tuple rest

end

/-- What is handed to `json.dumps`: in a tuple, the value as it is. -/
def sent (in_tuple : Bool) (v : Value) : Value := if in_tuple then v else v.encode

def sent_items (in_tuple : Bool) (items : List Value) : List Value :=
  if in_tuple then items else encode_items items

def sent_entries (in_tuple : Bool) (entries : List (String × Value)) : List (String × Value) :=
  if in_tuple then entries else encode_entries entries

/-- The value arrives as `w`. -/
def Arrives (in_tuple : Bool) (v w : Value) : Prop :=
  ∃ j, (v.sent in_tuple).to_json = .ok j ∧ j.to_value.decode = .ok w

def ArriveItems (in_tuple : Bool) (items ws : List Value) : Prop :=
  ∃ js, to_json_items (sent_items in_tuple items) = .ok js ∧
    decode_items (Json.to_value_items js) = .ok ws

def ArriveEntries (in_tuple : Bool) (entries ws : List (String × Value)) : Prop :=
  ∃ js, to_json_entries (sent_entries in_tuple entries) = .ok js ∧
    decode_entries (Json.to_value_entries js) = .ok ws

section Arrive

variable {in_tuple : Bool} {v w : Value} {items ws : List Value} {key : String}
  {entries es : List (String × Value)}

theorem sent_items_cons :
    sent_items in_tuple (v :: items) = v.sent in_tuple :: sent_items in_tuple items := by
  cases in_tuple with
  | false => rfl
  | true => rfl

theorem sent_entries_cons : sent_entries in_tuple ((key, v) :: entries) =
    (key, v.sent in_tuple) :: sent_entries in_tuple entries := by
  cases in_tuple with
  | false => rfl
  | true => rfl

/-- Items arrive one by one. -/
theorem arriveItems_cons : ArriveItems in_tuple (v :: items) (w :: ws) ↔
    Arrives in_tuple v w ∧ ArriveItems in_tuple items ws := by
  unfold ArriveItems Arrives
  rw [sent_items_cons]
  constructor
  · rintro ⟨js, hJson, hDecode⟩
    obtain ⟨j, hHead, hJson⟩ := bind_ok_iff.mp hJson
    obtain ⟨rest, hRest, hSame⟩ := bind_ok_iff.mp hJson
    obtain rfl := Except.ok.inj hSame
    obtain ⟨w', hHeadDecode, hDecode⟩ := bind_ok_iff.mp hDecode
    obtain ⟨ws', hRestDecode, hSame⟩ := bind_ok_iff.mp hDecode
    obtain ⟨rfl, rfl⟩ := List.cons.inj (Except.ok.inj hSame)
    exact ⟨⟨j, hHead, hHeadDecode⟩, rest, hRest, hRestDecode⟩
  · rintro ⟨⟨j, hHead, hHeadDecode⟩, rest, hRest, hRestDecode⟩
    refine ⟨j :: rest, ?_, ?_⟩
    · exact bind_ok_iff.mpr ⟨j, hHead, bind_ok_iff.mpr ⟨rest, hRest, rfl⟩⟩
    · exact bind_ok_iff.mpr ⟨w, hHeadDecode, bind_ok_iff.mpr ⟨ws, hRestDecode, rfl⟩⟩

/-- So do the entries of a dictionary, each under its key. -/
theorem arriveEntries_cons : ArriveEntries in_tuple ((key, v) :: entries) ((key, w) :: es) ↔
    Arrives in_tuple v w ∧ ArriveEntries in_tuple entries es := by
  unfold ArriveEntries Arrives
  rw [sent_entries_cons]
  constructor
  · rintro ⟨js, hJson, hDecode⟩
    obtain ⟨j, hHead, hJson⟩ := bind_ok_iff.mp hJson
    obtain ⟨rest, hRest, hSame⟩ := bind_ok_iff.mp hJson
    obtain rfl := Except.ok.inj hSame
    obtain ⟨w', hHeadDecode, hDecode⟩ := bind_ok_iff.mp hDecode
    obtain ⟨es', hRestDecode, hSame⟩ := bind_ok_iff.mp hDecode
    obtain ⟨hHeadSame, rfl⟩ := List.cons.inj (Except.ok.inj hSame)
    obtain ⟨_, rfl⟩ := Prod.mk.inj hHeadSame
    exact ⟨⟨j, hHead, hHeadDecode⟩, rest, hRest, hRestDecode⟩
  · rintro ⟨⟨j, hHead, hHeadDecode⟩, rest, hRest, hRestDecode⟩
    refine ⟨(key, j) :: rest, ?_, ?_⟩
    · exact bind_ok_iff.mpr ⟨j, hHead, bind_ok_iff.mpr ⟨rest, hRest, rfl⟩⟩
    · exact bind_ok_iff.mpr ⟨w, hHeadDecode, bind_ok_iff.mpr ⟨es, hRestDecode, rfl⟩⟩

theorem arriveItems_nil : ArriveItems in_tuple [] [] := by
  cases in_tuple with
  | false => exact ⟨[], rfl, rfl⟩
  | true => exact ⟨[], rfl, rfl⟩

theorem arriveEntries_nil : ArriveEntries in_tuple [] [] := by
  cases in_tuple with
  | false => exact ⟨[], rfl, rfl⟩
  | true => exact ⟨[], rfl, rfl⟩

/-- A value that is sent as a list arrives as the list of what its items arrive as. -/
theorem arrives_of_items (hSent : (v.sent in_tuple).to_json =
      (to_json_items (sent_items in_tuple items)).map .array) :
    Arrives in_tuple v (.list ws) ↔ ArriveItems in_tuple items ws := by
  unfold Arrives ArriveItems
  rw [hSent]
  constructor
  · rintro ⟨j, hJson, hDecode⟩
    obtain ⟨js, hItems, rfl⟩ := map_ok_iff.mp hJson
    obtain ⟨ws', hItemsDecode, hSame⟩ := map_ok_iff.mp hDecode
    obtain rfl := Value.list.inj hSame
    exact ⟨js, hItems, hItemsDecode⟩
  · rintro ⟨js, hItems, hDecode⟩
    exact ⟨.array js, map_ok_iff.mpr ⟨js, hItems, rfl⟩, map_ok_iff.mpr ⟨ws, hDecode, rfl⟩⟩

/-- A list arrives item by item. -/
theorem arrives_list : Arrives in_tuple (.list items) (.list ws) ↔
    ArriveItems in_tuple items ws := by
  apply arrives_of_items
  cases in_tuple with
  | false => rfl
  | true => rfl

/-- The encoder leaves a tuple as it is wherever it comes upon it. -/
theorem arrives_tuple : Arrives in_tuple (.tuple items) (.list ws) ↔
    ArriveItems true items ws := by
  unfold Arrives
  rw [show sent in_tuple (.tuple items) = sent true (.tuple items) by cases in_tuple <;> rfl]
  exact arrives_of_items rfl

/-- What has been encoded is decoded again. -/
theorem b64decode_b64encode (b : Bytes) : b64decode (.str (b64encode b)) = .ok b := by
  have hAscii : (b64encode b).toList.all (·.toNat < 128) = true := by
    unfold b64encode
    rw [String.toList_ofList]
    exact List.all_eq_true.mpr fun c h => decide_eq_true (Base64.encode_ascii b c h)
  rw [b64decode, if_pos hAscii]
  unfold b64encode
  rw [String.toList_ofList, Base64.decode_encode]
  rfl

/-- Bytes arrive as bytes unless they are in a tuple. -/
theorem arrives_bytes {b : Bytes} : Arrives in_tuple (.bytes b) (.bytes b) ↔
    in_tuple = false := by
  cases in_tuple with
  | false =>
      refine iff_of_true ⟨.object [(marker, .str (b64encode b))], rfl, ?_⟩ rfl
      show (b64decode (.str (b64encode b))).map Value.bytes = _
      rw [b64decode_b64encode]
      rfl
  | true =>
      constructor
      · rintro ⟨j, hJson, _⟩
        cases hJson
      · intro h
        cases h

/-- A document shows the marker just where the value did. -/
theorem marked_to_value {js : List (String × Json)}
    (hJson : to_json_entries (sent_entries in_tuple entries) = .ok js) :
    (marked (Json.to_value_entries js)).isNone = (marked entries).isNone := by
  cases entries with
  | nil =>
      have hNil : sent_entries in_tuple [] = [] := by cases in_tuple <;> rfl
      rw [hNil] at hJson
      obtain rfl := Except.ok.inj hJson
      rfl
  | cons first rest =>
      obtain ⟨key, v⟩ := first
      rw [sent_entries_cons] at hJson
      obtain ⟨j, _, hJson⟩ := bind_ok_iff.mp hJson
      obtain ⟨more, hMore, hSame⟩ := bind_ok_iff.mp hJson
      obtain rfl := Except.ok.inj hSame
      cases rest with
      | nil =>
          have hNil : sent_entries in_tuple [] = [] := by cases in_tuple <;> rfl
          rw [hNil] at hMore
          obtain rfl := Except.ok.inj hMore
          simp only [Json.to_value_entries, marked]
          split
          · rfl
          · rfl
      | cons second rest =>
          obtain ⟨key', v'⟩ := second
          rw [sent_entries_cons] at hMore
          obtain ⟨j', _, hMore⟩ := bind_ok_iff.mp hMore
          obtain ⟨_, _, hSame⟩ := bind_ok_iff.mp hMore
          obtain rfl := Except.ok.inj hSame
          rfl

/-- A dictionary with the marker for its only key never comes back as a dictionary. -/
theorem arrives_dict : Arrives in_tuple (.dict entries) (.dict es) ↔
    (marked entries).isNone = true ∧ ArriveEntries in_tuple entries es := by
  have hSent : ((Value.dict entries).sent in_tuple).to_json =
      (to_json_entries (sent_entries in_tuple entries)).map .object := by
    cases in_tuple with
    | false => rfl
    | true => rfl
  unfold Arrives ArriveEntries
  rw [hSent]
  constructor
  · rintro ⟨j, hJson, hDecode⟩
    obtain ⟨js, hEntries, rfl⟩ := map_ok_iff.mp hJson
    rw [← marked_to_value hEntries]
    rw [Json.to_value, decode] at hDecode
    cases hMarked : marked (Json.to_value_entries js) with
    | none =>
        rw [hMarked] at hDecode
        obtain ⟨es', hEntriesDecode, hSame⟩ := map_ok_iff.mp hDecode
        obtain rfl := Value.dict.inj hSame
        exact ⟨rfl, js, hEntries, hEntriesDecode⟩
    | some v =>
        rw [hMarked] at hDecode
        obtain ⟨b, _, hSame⟩ := map_ok_iff.mp hDecode
        cases hSame
  · rintro ⟨hUnmarked, js, hEntries, hDecode⟩
    refine ⟨.object js, map_ok_iff.mpr ⟨js, hEntries, rfl⟩, ?_⟩
    rw [← marked_to_value hEntries] at hUnmarked
    rw [Json.to_value, decode, Option.isNone_iff_eq_none.mp hUnmarked]
    exact map_ok_iff.mpr ⟨es, hDecode, rfl⟩

end Arrive

section Plain

/-- Scalars arrive as they are. -/
theorem arrives_scalar {in_tuple : Bool} {v : Value} {j : Json}
    (hSent : (v.sent in_tuple).to_json = .ok j) (hBack : j.to_value.decode = .ok v) :
    Arrives in_tuple v v ↔ true = true :=
  iff_of_true ⟨j, hSent, hBack⟩ rfl

mutual

/-- Just the plain values arrive as what they were. -/
theorem arrives_iff (in_tuple : Bool) : ∀ v : Value,
    Arrives in_tuple v v.listed ↔ v.plain in_tuple = true
  | .none => by cases in_tuple <;> exact arrives_scalar rfl rfl
  | .bool b => by cases in_tuple <;> exact arrives_scalar rfl rfl
  | .int n => by cases in_tuple <;> exact arrives_scalar rfl rfl
  | .float x => by cases in_tuple <;> exact arrives_scalar rfl rfl
  | .str s => by cases in_tuple <;> exact arrives_scalar rfl rfl
  | .bytes b => by
      show Arrives in_tuple (.bytes b) (.bytes b) ↔ (!in_tuple) = true
      rw [arrives_bytes, Bool.not_eq_true']
  | .list items => by
      rw [listed, plain, arrives_list]
      exact arriveItems_iff in_tuple items
  | .tuple items => by
      rw [listed, plain, arrives_tuple]
      exact arriveItems_iff true items
  | .dict entries => by
      rw [listed, plain, arrives_dict, Bool.and_eq_true, arriveEntries_iff in_tuple entries]

/-- Items all arrive as they are read if each of them is plain. -/
theorem arriveItems_iff (in_tuple : Bool) : ∀ items : List Value,
    ArriveItems in_tuple items (listed_items items) ↔ plain_items in_tuple items = true
  | [] => iff_of_true arriveItems_nil rfl
  | v :: rest => by
      rw [listed_items, plain_items, arriveItems_cons, Bool.and_eq_true, arrives_iff in_tuple v,
        arriveItems_iff in_tuple rest]

/-- And so do entries. -/
theorem arriveEntries_iff (in_tuple : Bool) : ∀ entries : List (String × Value),
    ArriveEntries in_tuple entries (listed_entries entries) ↔
      plain_entries in_tuple entries = true
  | [] => iff_of_true arriveEntries_nil rfl
  | (key, v) :: rest => by
      rw [listed_entries, plain_entries, arriveEntries_cons, Bool.and_eq_true,
        arrives_iff in_tuple v, arriveEntries_iff in_tuple rest]

end

end Plain

end Value

/-- The value on the other side of the wire. -/
def received (json : JsonText) (v : Value) : Except Failure Value := do
  let data ← body json v
  read json data

/-- The text of the value's document reads as that document again. -/
def JsonText.Keeps (json : JsonText) (v : Value) : Prop :=
  ∀ j, v.encode.to_json = .ok j → json.loads (json.dumps j) = .ok j

variable {json : JsonText} {v w : Value}

/-- With a parser that keeps the value, what is received is what arrives. -/
theorem received_iff (hJson : json.Keeps v) :
    received json v = .ok w ↔ v.Arrives false w := by
  unfold received
  rw [bind_ok_iff]
  constructor
  · rintro ⟨data, hBody, hRead⟩
    obtain ⟨j, hDumps, rfl⟩ := map_ok_iff.mp hBody
    obtain ⟨j', hLoads, hDecode⟩ := bind_ok_iff.mp hRead
    rw [hJson j hDumps] at hLoads
    obtain rfl := Except.ok.inj hLoads
    exact ⟨j, hDumps, hDecode⟩
  · rintro ⟨j, hDumps, hDecode⟩
    exact ⟨json.dumps j, map_ok_iff.mpr ⟨j, hDumps, rfl⟩,
      bind_ok_iff.mpr ⟨j, hJson j hDumps, hDecode⟩⟩

/-- A value comes back as what it was, with its tuples as lists, just when it is plain: no bytes in
a tuple, and no dictionary whose only key is the marker for bytes. Of the JSON library only this is
assumed, that it reads the text of the document as that document. -/
theorem round_trip_iff (hJson : json.Keeps v) :
    received json v = .ok v.listed ↔ v.plain false = true := by
  rw [received_iff hJson]
  exact v.arrives_iff false

/-- A text library as far as one document goes. -/
def oneDocument (text : String) (j : Json) : JsonText where
  dumps _ := text.toList.map fun c => UInt8.ofNat c.toNat
  loads _ := .ok j

/-- A parser that knows the one document that is sent keeps it. -/
theorem keeps_oneDocument {text : String} {j : Json} (hDumps : v.encode.to_json = .ok j) :
    (oneDocument text j).Keeps v := by
  intro j' hJson
  rw [hDumps] at hJson
  exact hJson

/-- Bytes and a tuple, one beside the other. -/
theorem round_trip_payload :
    received (oneDocument "[\x7b\"__b64__\": \"AQI=\"\x7d, [3, null]]"
        (.array [.object [("__b64__", .str "AQI=")], .array [.int 3, .null]]))
      (.list [.bytes [1, 2], .tuple [.int 3, .none]]) =
        .ok (.list [.bytes [1, 2], .list [.int 3, .none]]) :=
  (round_trip_iff (keeps_oneDocument rfl)).mpr rfl

/-- A dictionary with the marker for its only key is read as bytes, and bytes in a tuple are not
sent at all. -/
theorem marker_and_tuple_are_lost :
    (¬∀ (json : JsonText) (v : Value), json.Keeps v → received json v = .ok v.listed) ∧
      ∀ json : JsonText, received json (.tuple [.bytes [1]]) =
        .error (.type_error "Object of type bytes is not JSON serializable") := by
  constructor
  · intro h
    have hBack := h (oneDocument "\x7b\"__b64__\": \"YQ==\"\x7d"
      (.object [("__b64__", .str "YQ==")])) (.dict [("__b64__", .str "YQ==")])
      (keeps_oneDocument rfl)
    have hBytes : received (oneDocument "\x7b\"__b64__\": \"YQ==\"\x7d"
        (.object [("__b64__", .str "YQ==")])) (.dict [("__b64__", .str "YQ==")]) =
          .ok (.bytes [97]) := rfl
    rw [hBytes] at hBack
    cases hBack
  · intro json
    rfl

end Worker.Wire
