import ConcuRide.Common
import ConcuRide.Lib.JsonText

set_option autoImplicit false

/-! # Serialized messages

`serialize.rs` and `deserialize.rs` of the `common` crate: a message is a JSON object with its name
and its payload, and a receiver reads the fields of the payload one by one. `serde_json::to_string`
and `serde_json::from_str` are parameters. -/

namespace ConcuRide

open Lib

/-- The value of a `SerializableMessage`. -/
def messageValue (name : String) (payload : Json) : Json :=
  .object [("name", .str name), ("payload", payload)]

/-- `serialize_message`. -/
def serializeMessage (toString : Json → String) (name : String) (payload : Json) : String :=
  toString (messageValue name payload)

/-- `split_message`, once the text is read as a value. -/
def splitValue (message : Json) : String × Json :=
  match (message.get "name").asStr with
  | none => ("", .null)
  | some name =>
    match message.field? "payload" with
    | none => ("", .null)
    | some payload => (name, payload)

/-- `split_message`. -/
def splitMessage (fromStr : String → Option Json) (messageString : String) : String × Json :=
  match fromStr messageString with
  | none => ("", .null)
  | some message => splitValue message

/-- `serde_json::from_value`; `none` stands for its error. -/
class FromValue (α : Type) where
  fromValue : Json → Option α

export FromValue (fromValue)

instance : FromValue ℕ := ⟨Json.asU64⟩
instance : FromValue Bool := ⟨Json.asBool⟩
instance : FromValue String := ⟨Json.asStr⟩

instance {α : Type} [FromValue α] : FromValue (List α) where
  fromValue
    | .arr elements => elements.mapM fromValue
    | _ => none

instance {α β : Type} [FromValue α] [FromValue β] : FromValue (α × β) where
  fromValue
    | .arr [x, y] => do return (← fromValue x, ← fromValue y)
    | _ => none

/-- The keys of a map, which are strings in an object. -/
class FromKey (K : Type) where
  fromKey : String → Option K

export FromKey (fromKey)

instance : FromKey String := ⟨some⟩

/-- A number as a key is written in decimals. -/
instance : FromKey ℕ where
  fromKey key :=
    let n := Nat.ofDigitChars 10 key.toList 0
    if n < 2 ^ 64 ∧ n.repr = key then some n else none

/-- A field of an object as an entry of a map. -/
def entry {K V : Type} [FromKey K] [FromValue V] (field : String × Json) :
    Option (Sigma fun _ : K => V) := do
  let key ← fromKey field.1
  let value ← fromValue field.2
  return ⟨key, value⟩

instance {K V : Type} [DecidableEq K] [FromKey K] [FromValue V] : FromValue (HashMap K V) where
  fromValue
    | .obj fields => (fields.mapM entry).map List.toAList
    | _ => none

inductive DeserializationError where
  | missingField (field : String)
  | serdeJsonError (field : String)
deriving DecidableEq, Repr

/-- `deserialize_field`. -/
def deserializeField (α : Type) [FromValue α] (message : Json) (field : String) :
    Except DeserializationError α :=
  match message.field? field with
  | none => .error (.missingField field)
  | some value =>
    match fromValue value with
    | none => .error (.serdeJsonError field)
    | some a => .ok a

/-! ## Values that are written -/

/-- `serde_json::to_value`, for values whose numbers are `u64`s. -/
class ToValue (α : Type) where
  toValue : α → Json
  Fits : α → Prop

export ToValue (toValue Fits)

/-- The text of a key, with the keys that are written. -/
class ToKey (K : Type) where
  toKey : K → String
  FitsKey : K → Prop

export ToKey (toKey FitsKey)

instance : ToValue ℕ := ⟨.num, fun n => n < 2 ^ 64⟩
instance : ToValue Bool := ⟨.bool, fun _ => True⟩
instance : ToValue String := ⟨.str, fun _ => True⟩
instance : ToKey String := ⟨id, fun _ => True⟩
instance : ToKey ℕ := ⟨Nat.repr, fun n => n < 2 ^ 64⟩

instance {α : Type} [ToValue α] : ToValue (List α) where
  toValue as := .arr (as.map toValue)
  Fits as := ∀ a ∈ as, Fits a

instance {α β : Type} [ToValue α] [ToValue β] : ToValue (α × β) where
  toValue p := .arr [toValue p.1, toValue p.2]
  Fits p := Fits p.1 ∧ Fits p.2

instance {K V : Type} [ToKey K] [ToValue V] : ToValue (HashMap K V) where
  toValue m := .obj (m.entries.map fun e => (toKey e.1, toValue e.2))
  Fits m := ∀ e ∈ m.entries, FitsKey e.1 ∧ Fits e.2

/-! ## Messages are read back -/

variable {v v' payload : Json} {key : String}

/-- A field of a value is found in every value that is the same. -/
theorem same_field? {field : Json} (h : v.Same v') (hfield : v.field? key = some field) :
    ∃ field', v'.field? key = some field' ∧ field.Same field' := by
  cases h with
  | @obj fields fields' _ _ h =>
      have hrel := h key
      rw [Json.field?] at hfield
      rw [hfield] at hrel
      rw [Json.field?]
      generalize fields'.lookup key = r at hrel
      cases hrel with
      | some hsame => exact ⟨_, rfl, hsame⟩
  | _ => cases hfield

theorem valid_object {fields : List (String × Json)} (h : ∀ f ∈ fields, f.2.Valid) :
    (Json.object fields).Valid := by
  have hfold : ((fields.foldl Json.insertField []).map Prod.fst).Nodup ∧
      ∀ f ∈ fields.foldl Json.insertField [], f.2.Valid := by
    induction fields using List.reverseRecOn with
    | nil => simp
    | append_singleton fields field ih =>
        obtain ⟨hkeys, hvalid⟩ := ih fun f hf => h f (List.mem_append_left _ hf)
        rw [List.foldl_append, List.foldl_cons, List.foldl_nil, Json.insertField]
        constructor
        · rw [List.map_append, List.nodup_append]
          refine ⟨hkeys.sublist (List.filter_sublist.map _), List.nodup_singleton _, ?_⟩
          intro key hkey key' hkey'
          obtain ⟨f, hf, rfl⟩ := List.mem_map.1 hkey
          rw [List.map_singleton, List.mem_singleton] at hkey'
          rw [hkey']
          simpa using (List.mem_filter.1 hf).2
        · intro f hf
          rcases List.mem_append.1 hf with hf | hf
          · exact hvalid f (List.mem_of_mem_filter hf)
          · obtain rfl := List.mem_singleton.1 hf
            exact h f (by simp)
  exact .obj hfold.1 hfold.2

theorem valid_messageValue (name : String) (h : payload.Valid) :
    (messageValue name payload).Valid :=
  valid_object (by simp [h, Json.Valid.str])

/-- **A message is split into what it was made of.** -/
theorem splitMessage_serializeMessage (codec : JsonCodec) (name : String) (h : payload.Valid) :
    ∃ payload', splitMessage codec.fromStr (serializeMessage codec.toString name payload) =
      (name, payload') ∧ payload.Same payload' := by
  obtain ⟨v, hv, hsame⟩ := codec.fromStr_toString _ (valid_messageValue name h)
  have hname : (messageValue name payload).field? "name" = some (.str name) := by
    simp [messageValue, Json.field?_object, List.lookup_cons]
  have hpayload : (messageValue name payload).field? "payload" = some payload := by
    simp [messageValue, Json.field?_object]
  obtain ⟨name', hname', hsame'⟩ := same_field? hsame hname
  obtain ⟨payload', hpayload', hsame''⟩ := same_field? hsame hpayload
  cases hsame'
  refine ⟨payload', ?_, hsame''⟩
  rw [splitMessage, serializeMessage, hv]
  simp [splitValue, Json.get_eq_field?, hname', hpayload', Json.asStr]

/-! ## Values are read back -/

/-- What is written as a value of `α` is read as a value of `β` that `R` relates it to. -/
structure ReadsAs {α β : Type} [ToValue α] [FromValue β] (R : α → β → Prop) : Prop where
  valid : ∀ a : α, Fits a → (toValue a).Valid
  read : ∀ (a : α) (v : Json), Fits a → (toValue a).Same v → ∃ b : β, fromValue v = some b ∧ R a b

/-- Keys are read back, and no two keys have the same text. -/
class LawfulKey (K : Type) [ToKey K] [FromKey K] : Prop where
  toKey_injective : Function.Injective (toKey : K → String)
  fromKey_toKey : ∀ k : K, FitsKey k → fromKey (toKey k) = some k
  toKey_of_fromKey : ∀ (key : String) (k : K), fromKey key = some k → toKey k = key

theorem ofDigitChars_repr (n : ℕ) : Nat.ofDigitChars 10 n.repr.toList 0 = n := by
  rw [Nat.repr_eq_ofList_toDigits, String.toList_ofList, Nat.ofDigitChars_ten_toDigits]

instance : LawfulKey ℕ where
  toKey_injective m n h := by
    have h : m.repr = n.repr := h
    rw [← ofDigitChars_repr m, h, ofDigitChars_repr]
  fromKey_toKey n hn := by
    show (if _ then _ else _) = _
    rw [show toKey n = n.repr from rfl, ofDigitChars_repr, if_pos ⟨hn, rfl⟩]
  toKey_of_fromKey key n h := by
    have h : (if _ then _ else _) = _ := h
    split at h
    · next hkey =>
        obtain rfl := Option.some.inj h
        exact hkey.2
    · cases h

instance : LawfulKey String where
  toKey_injective _ _ h := h
  fromKey_toKey _ _ := rfl
  toKey_of_fromKey _ _ h := (Option.some.inj h).symm

section

variable {α α' β β' : Type} [ToValue α] [ToValue α'] [FromValue β] [FromValue β']
  {R : α → β → Prop} {R' : α' → β' → Prop}

theorem ReadsAs.mono {S : α → β → Prop} (h : ReadsAs R) (hR : ∀ a b, R a b → S a b) :
    ReadsAs S where
  valid := h.valid
  read a v hfits hsame := by
    obtain ⟨b, hb, hab⟩ := h.read a v hfits hsame
    exact ⟨b, hb, hR a b hab⟩

theorem readsAs_nat : ReadsAs (Eq : ℕ → ℕ → Prop) where
  valid _ h := .num h
  read n v _ h := by
    cases h
    exact ⟨n, rfl, rfl⟩

theorem readsAs_bool : ReadsAs (Eq : Bool → Bool → Prop) where
  valid b _ := .bool b
  read b v _ h := by
    cases h
    exact ⟨b, rfl, rfl⟩

theorem readsAs_string : ReadsAs (Eq : String → String → Prop) where
  valid s _ := .str s
  read s v _ h := by
    cases h
    exact ⟨s, rfl, rfl⟩

theorem ReadsAs.list (h : ReadsAs R) : ReadsAs (List.Forall₂ R) where
  valid as hfits := by
    refine .arr fun v hv => ?_
    obtain ⟨a, ha, rfl⟩ := List.mem_map.1 hv
    exact h.valid a (hfits a ha)
  read as v hfits hsame := by
    replace hsame : (Json.arr (as.map toValue)).Same v := hsame
    cases hsame with
    | @arr _ elements helements =>
        have hmap : ∃ bs : List β, elements.mapM fromValue = some bs ∧ List.Forall₂ R as bs := by
          induction as generalizing elements with
          | nil =>
              cases helements
              exact ⟨[], rfl, .nil⟩
          | cons a as ih =>
              cases helements with
              | cons hv helements =>
                  obtain ⟨b, hb, hab⟩ := h.read a _ (hfits a List.mem_cons_self) hv
                  obtain ⟨bs, hbs, habs⟩ := ih
                    (fun x hx => hfits x (List.mem_cons_of_mem a hx)) helements
                  exact ⟨b :: bs, by simp [hb, hbs], .cons hab habs⟩
        obtain ⟨bs, hbs, habs⟩ := hmap
        exact ⟨bs, hbs, habs⟩

theorem ReadsAs.prod (h : ReadsAs R) (h' : ReadsAs R') :
    ReadsAs fun (p : α × α') (q : β × β') => R p.1 q.1 ∧ R' p.2 q.2 where
  valid p hfits := .arr fun v hv => by
    simp only [List.mem_cons, List.not_mem_nil, or_false] at hv
    rcases hv with rfl | rfl
    · exact h.valid p.1 hfits.1
    · exact h'.valid p.2 hfits.2
  read p v hfits hsame := by
    replace hsame : (Json.arr [toValue p.1, toValue p.2]).Same v := hsame
    cases hsame with
    | arr helements =>
        cases helements with
        | cons hx hrest =>
            cases hrest with
            | cons hy hnil =>
                cases hnil
                obtain ⟨x, hx, hpx⟩ := h.read p.1 _ hfits.1 hx
                obtain ⟨y, hy, hpy⟩ := h'.read p.2 _ hfits.2 hy
                refine ⟨(x, y), ?_, hpx, hpy⟩
                show (do return (← fromValue _, ← fromValue _) : Option (β × β')) = _
                rw [hx, hy]
                rfl

section

variable {K V V' : Type} [DecidableEq K] [ToKey K] [FromKey K] [LawfulKey K] [ToValue V]
  [FromValue V']

theorem lookup_map_toKey (entries : List (Sigma fun _ : K => V)) (k : K) :
    (entries.map fun e => (toKey e.1, toValue e.2)).lookup (toKey k) =
      (entries.dlookup k).map toValue := by
  induction entries with
  | nil => rfl
  | cons e entries ih =>
      rw [List.map_cons, List.lookup_cons]
      by_cases hk : k = e.1
      · subst hk
        rw [beq_self_eq_true, List.dlookup_cons_eq]
        rfl
      · have hkey : toKey k ≠ toKey e.1 := fun h => hk (LawfulKey.toKey_injective h)
        rw [beq_false_of_ne hkey, List.dlookup_cons_ne _ _ hk]
        exact ih

/-- The entries of a map that is read, when every field is one. -/
theorem mapM_entry {fields : List (String × Json)}
    (h : ∀ f ∈ fields, ∃ e : Sigma fun _ : K => V', entry f = some e) :
    ∃ es : List (Sigma fun _ : K => V'), fields.mapM entry = some es ∧
      ∀ k, es.dlookup k = (fields.lookup (toKey k)).bind fromValue := by
  induction fields with
  | nil => exact ⟨[], rfl, fun k => rfl⟩
  | cons f fields ih =>
      obtain ⟨e, he⟩ := h f List.mem_cons_self
      obtain ⟨es, hes, hlookup⟩ := ih fun f' hf' => h f' (List.mem_cons_of_mem f hf')
      refine ⟨e :: es, by simp [he, hes], fun k => ?_⟩
      simp only [entry, Option.bind_eq_bind, Option.bind_eq_some_iff] at he
      obtain ⟨k', hk', b, hb, he⟩ := he
      obtain rfl := Option.some.inj he
      have hkey := LawfulKey.toKey_of_fromKey _ _ hk'
      rw [List.lookup_cons]
      by_cases hk : k = k'
      · subst hk
        rw [hkey, beq_self_eq_true, List.dlookup_cons_eq, Option.bind_some, hb]
      · have hne : toKey k ≠ f.1 := fun heq =>
          hk (LawfulKey.toKey_injective (heq.trans hkey.symm))
        rw [beq_false_of_ne hne, List.dlookup_cons_ne _ _ hk]
        exact hlookup k

theorem lookup_of_mem {fields : List (String × Json)} {f : String × Json}
    (hkeys : (fields.map Prod.fst).Nodup) (hf : f ∈ fields) : fields.lookup f.1 = some f.2 := by
  obtain ⟨before, after, rfl⟩ := List.append_of_mem hf
  rw [List.map_append, List.nodup_append] at hkeys
  refine List.lookup_eq_some_iff.2 ⟨before, after, rfl, fun f' hf' => ?_⟩
  have hne := hkeys.2.2 f'.1 (List.mem_map_of_mem hf') f.1 (by simp)
  simpa using Ne.symm hne

theorem ReadsAs.map {S : V → V' → Prop} (h : ReadsAs S) :
    ReadsAs fun (m : HashMap K V) (m' : HashMap K V') =>
      ∀ k, Option.Rel S (m.lookup k) (m'.lookup k) where
  valid m hfits := by
    refine .obj ?_ fun f hf => ?_
    · have hkeys : (m.entries.map Sigma.fst).Nodup := m.nodupKeys
      have hmap : (m.entries.map fun e => (toKey e.1, toValue e.2)).map Prod.fst =
          (m.entries.map Sigma.fst).map toKey := by
        rw [List.map_map, List.map_map]
        rfl
      rw [hmap]
      exact hkeys.map LawfulKey.toKey_injective
    · obtain ⟨e, he, rfl⟩ := List.mem_map.1 hf
      exact h.valid e.2 (hfits e he).2
  read m v hfits hsame := by
    replace hsame : (Json.obj (m.entries.map fun e => (toKey e.1, toValue e.2))).Same v := hsame
    cases hsame with
    | @obj _ fields _ hkeys hrel =>
        -- every field is an entry that was written
        have hentry : ∀ f ∈ fields, ∃ e : Sigma fun _ : K => V', entry f = some e := by
          intro f hf
          have hf' := hrel f.1
          rw [lookup_of_mem hkeys hf] at hf'
          generalize hlookup : List.lookup f.1 _ = r at hf'
          cases hf' with
          | some hsame =>
              obtain ⟨e, he, heq⟩ := List.mem_map.1 (Json.mem_of_lookup hlookup)
              obtain ⟨hkey, rfl⟩ := Prod.mk.inj heq
              obtain ⟨b, hb, -⟩ := h.read e.2 _ (hfits e he).2 hsame
              refine ⟨⟨e.1, b⟩, ?_⟩
              rw [entry, ← hkey, LawfulKey.fromKey_toKey e.1 (hfits e he).1]
              simp [hb]
        obtain ⟨es, hes, hlookup⟩ := mapM_entry hentry
        refine ⟨es.toAList, by show (fields.mapM entry).map List.toAList = _; rw [hes]; rfl, ?_⟩
        intro k
        have hk := hrel (toKey k)
        rw [lookup_map_toKey] at hk
        rw [AList.lookup_to_alist, hlookup, AList.lookup]
        cases hm : m.entries.dlookup k with
        | none =>
            rw [hm, Option.map_none] at hk
            generalize fields.lookup (toKey k) = r at hk
            cases hk
            exact .none
        | some a =>
            rw [hm, Option.map_some] at hk
            generalize fields.lookup (toKey k) = r at hk
            cases hk with
            | some hsame =>
                have ha := (hfits _ (List.of_mem_dlookup hm)).2
                obtain ⟨b, hb, hab⟩ := h.read a _ ha hsame
                rw [Option.bind_some, hb]
                exact .some hab

end

/-- A field of a payload is read back. -/
theorem ReadsAs.field (h : ReadsAs R) {a : α} {payload payload' : Json} {key : String}
    (hsame : payload.Same payload') (hfield : payload.field? key = some (toValue a))
    (hfits : Fits a) : ∃ b, deserializeField β payload' key = .ok b ∧ R a b := by
  obtain ⟨v, hv, hsame'⟩ := same_field? hsame hfield
  obtain ⟨b, hb, hab⟩ := h.read a v hfits hsame'
  refine ⟨b, ?_, hab⟩
  rw [deserializeField, hv]
  simp only [hb]

end

/-- A type whose values are read back as they were written. -/
class LawfulValue (α : Type) [ToValue α] [FromValue α] : Prop where
  readsAs : ReadsAs (Eq : α → α → Prop)

instance : LawfulValue ℕ := ⟨readsAs_nat⟩
instance : LawfulValue Bool := ⟨readsAs_bool⟩
instance : LawfulValue String := ⟨readsAs_string⟩

instance {α : Type} [ToValue α] [FromValue α] [LawfulValue α] : LawfulValue (List α) where
  readsAs := LawfulValue.readsAs.list.mono fun _ _ h => List.forall₂_eq_eq_eq ▸ h

instance {α β : Type} [ToValue α] [FromValue α] [LawfulValue α] [ToValue β] [FromValue β]
    [LawfulValue β] : LawfulValue (α × β) where
  readsAs := (LawfulValue.readsAs.prod LawfulValue.readsAs).mono fun _ _ h => Prod.ext h.1 h.2

theorem valid_toValue {α : Type} [ToValue α] [FromValue α] [LawfulValue α] {a : α} (h : Fits a) :
    (toValue a).Valid :=
  LawfulValue.readsAs.valid a h

/-- A field of an object is read back. -/
theorem ReadsAs.field_object {α β : Type} [ToValue α] [FromValue β] {R : α → β → Prop}
    (h : ReadsAs R) {a : α} {fields : List (String × Json)} {key : String}
    (hsame : (Json.object fields).Same payload)
    (hfield : fields.reverse.lookup key = some (toValue a)) (hfits : Fits a) :
    ∃ b, deserializeField β payload key = .ok b ∧ R a b :=
  h.field hsame ((Json.field?_object key fields).trans hfield) hfits

theorem deserializeField_object {α : Type} [ToValue α] [FromValue α] [LawfulValue α] (a : α)
    {fields : List (String × Json)} {key : String} (hsame : (Json.object fields).Same payload)
    (hfield : fields.reverse.lookup key = some (toValue a)) (hfits : Fits a) :
    deserializeField α payload key = .ok a := by
  obtain ⟨b, hb, rfl⟩ := LawfulValue.readsAs.field_object hsame hfield hfits
  exact hb

/-- A field of an object inside a field. -/
theorem field?_bind_fromValue {α : Type} [ToValue α] [FromValue α] [LawfulValue α] (a : α)
    {fields : List (String × Json)} {key : String} (hsame : (Json.object fields).Same payload)
    (hfield : fields.reverse.lookup key = some (toValue a)) (hfits : Fits a) :
    (payload.field? key).bind fromValue = some a := by
  obtain ⟨v, hv, hsame'⟩ := same_field? hsame ((Json.field?_object key fields).trans hfield)
  obtain ⟨b, hb, rfl⟩ := LawfulValue.readsAs.read a v hfits hsame'
  rw [hv]
  exact hb

/-- A map is read back with the same entries. -/
theorem readsAs_map {K V : Type} [DecidableEq K] [ToKey K] [FromKey K] [LawfulKey K] [ToValue V]
    [FromValue V] [LawfulValue V] :
    ReadsAs fun m m' : HashMap K V => ∀ k, m'.lookup k = m.lookup k := by
  refine LawfulValue.readsAs.map.mono fun m m' h k => ?_
  have hk := h k
  generalize m.lookup k = r, m'.lookup k = r' at hk
  cases hk with
  | none => rfl
  | some heq => rw [heq]

end ConcuRide
