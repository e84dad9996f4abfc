import FabricXSdk.Lib.Wire

/-!
# Codecs for messages

A `Codec` is the pair of `proto.Marshal` and `proto.Unmarshal` for one message
type, and `Codec.Lawful` is what callers rely on. Lawful codecs are put together
from kinds of fields and bodies of numbered fields. A kind and a body carry their
own round trip, so a message built from them has one too.

## Implementation notes

Of a field that occurs more than once the last occurrence counts, also for an
embedded message.
-/

namespace Protobuf

open Golang

structure Codec (M : Type) where
  marshal : M → Except Text Bytes
  unmarshal : Bytes → Except Text M

/-- A message that can be encoded is encoded, decoding an encoded message gives it
back, and a decoded message can be encoded again. -/
structure Codec.Lawful {M : Type} (c : Codec M) (Encodable : M → Prop) : Prop where
  marshal_ok : ∀ m, Encodable m → ∃ b, c.marshal m = .ok b
  unmarshal_marshal : ∀ m b, c.marshal m = .ok b → c.unmarshal b = .ok m
  unmarshal_encodable : ∀ b m, c.unmarshal b = .ok m → Encodable m

/-- Exactly the messages that can be encoded are. -/
theorem Codec.Lawful.marshal_ok_iff {M : Type} {c : Codec M} {Encodable : M → Prop}
    (h : c.Lawful Encodable) (m : M) : (∃ b, c.marshal m = .ok b) ↔ Encodable m := by
  constructor
  · rintro ⟨b, hb⟩
    exact h.unmarshal_encodable b m (h.unmarshal_marshal m b hb)
  · exact h.marshal_ok m

/-- A kind of field: which values can be written, and how the values under its
number are written and read. -/
structure Kind (α : Type) where
  ok : α → Bool
  put : α → List Value
  get : List Value → Option α
  get_put : ∀ a, ok a = true → get (put a) = some a
  get_ok : ∀ vs a, get vs = some a → ok a = true

/-- A message body: fields under distinct numbers. -/
structure Body (α : Type) where
  numbers : List ℕ
  ok : α → Bool
  put : α → List Field
  get : List Field → Option α
  put_numbers : ∀ a, ∀ f ∈ put a, f.1 ∈ numbers
  get_put : ∀ a fs, ok a = true → fs.filter (fun f => f.1 ∈ numbers) = put a → get fs = some a
  get_ok : ∀ fs a, get fs = some a → ok a = true

namespace Body

variable {α β M : Type}

def nil : Body Unit where
  numbers := []
  ok := fun _ => true
  put := fun _ => []
  get := fun _ => some ()
  put_numbers := by simp
  get_put := by simp
  get_ok := by simp

@[simp] theorem nil_ok (u : Unit) : nil.ok u = true := rfl

/-- The values under one number. -/
def valuesAt (number : ℕ) (fs : List Field) : List Value :=
  (fs.filter fun f => f.1 = number).map Prod.snd

/-- Selecting fields can be done in two steps, the first of which keeps more of them. -/
theorem filter_narrow {p q : Field → Bool} (h : ∀ f, p f = true → q f = true) {fs : List Field} :
    fs.filter p = (fs.filter q).filter p := by
  rw [List.filter_filter]
  apply List.filter_congr
  intro f _
  cases hp : p f with
  | false => rfl
  | true => rw [h f hp, Bool.and_true]

/-- Put one more field in front. -/
def field (number : ℕ) (kind : Kind α) (rest : Body β)
    (h : number ∉ rest.numbers := by decide) : Body (α × β) where
  numbers := number :: rest.numbers
  ok := fun p => kind.ok p.1 && rest.ok p.2
  put := fun p => (kind.put p.1).map (fun v => (number, v)) ++ rest.put p.2
  get := fun fs =>
    match kind.get (valuesAt number fs), rest.get fs with
    | some a, some b => some (a, b)
    | _, _ => none
  put_numbers := by
    intro p f hf
    rcases List.mem_append.mp hf with hf | hf
    · obtain ⟨v, _, rfl⟩ := List.mem_map.mp hf
      exact List.mem_cons_self
    · exact List.mem_cons_of_mem _ (rest.put_numbers p.2 f hf)
  get_put := by
    intro p fs hok hfs
    rw [Bool.and_eq_true] at hok
    -- the numbers are distinct, so each part of the body finds its own fields only
    have hmine : fs.filter (fun f => f.1 = number) =
        (kind.put p.1).map fun v => (number, v) := by
      have hsub : fs.filter (fun f => f.1 = number) =
          (fs.filter fun f => f.1 ∈ number :: rest.numbers).filter fun f => f.1 = number :=
        filter_narrow fun f hn => by simp [of_decide_eq_true hn]
      have hother : (rest.put p.2).filter (fun f => f.1 = number) = [] := by
        rw [List.filter_eq_nil_iff]
        intro f hf hn
        have hmem := rest.put_numbers p.2 f hf
        rw [of_decide_eq_true hn] at hmem
        exact h hmem
      rw [hsub, hfs, List.filter_append, hother, List.append_nil, List.filter_eq_self]
      intro f hf
      obtain ⟨v, _, rfl⟩ := List.mem_map.mp hf
      simp
    have hrest : fs.filter (fun f => f.1 ∈ rest.numbers) = rest.put p.2 := by
      have hsub : fs.filter (fun f => f.1 ∈ rest.numbers) =
          (fs.filter fun f => f.1 ∈ number :: rest.numbers).filter
            fun f => f.1 ∈ rest.numbers :=
        filter_narrow fun f hn => by simp [of_decide_eq_true hn]
      have hother : ((kind.put p.1).map fun v => (number, v)).filter
          (fun f => f.1 ∈ rest.numbers) = [] := by
        rw [List.filter_eq_nil_iff]
        intro f hf
        obtain ⟨v, _, rfl⟩ := List.mem_map.mp hf
        simpa using h
      rw [hsub, hfs, List.filter_append, hother, List.nil_append, List.filter_eq_self]
      intro f hf
      simpa using rest.put_numbers p.2 f hf
    have hvalues : valuesAt number fs = kind.put p.1 := by
      rw [valuesAt, hmine, List.map_map]
      exact List.map_id _
    rw [hvalues, kind.get_put p.1 hok.1, rest.get_put p.2 fs hok.2 hrest]
  get_ok := by
    intro fs p h
    split at h
    · rename_i a b ha hb
      cases h
      rw [kind.get_ok _ a ha, rest.get_ok fs b hb]
      rfl
    · cases h

@[simp] theorem field_ok {number : ℕ} {kind : Kind α} {rest : Body β}
    {h : number ∉ rest.numbers} {p : α × β} :
    (field number kind rest h).ok p = (kind.ok p.1 && rest.ok p.2) := rfl

/-- Read a tuple of fields as a structure. -/
def iso (body : Body α) (tuple : M → α) (record : α → M) (h : ∀ m, record (tuple m) = m)
    (h' : ∀ a, tuple (record a) = a) : Body M where
  numbers := body.numbers
  ok := fun m => body.ok (tuple m)
  put := fun m => body.put (tuple m)
  get := fun fs => (body.get fs).map record
  put_numbers := fun m => body.put_numbers (tuple m)
  get_put := by
    intro m fs hok hfs
    rw [body.get_put (tuple m) fs hok hfs, Option.map_some, h]
  get_ok := by
    intro fs m hm
    obtain ⟨a, ha, rfl⟩ := Option.map_eq_some_iff.mp hm
    rw [h']
    exact body.get_ok fs a ha

@[simp] theorem iso_ok {body : Body α} {tuple : M → α} {record : α → M}
    {h : ∀ m, record (tuple m) = m} {h' : ∀ a, tuple (record a) = a} {m : M} :
    (body.iso tuple record h h').ok m = body.ok (tuple m) := rfl

/-- At most one of several fields, of which the last counts. -/
def oneof (numbers : List ℕ) (put : α → Field) (get : Field → Option α)
    (hnumbers : ∀ a, (put a).1 ∈ numbers) (hget : ∀ a, get (put a) = some a) :
    Body (Option α) where
  numbers := numbers
  ok := fun _ => true
  put := fun o => (o.map put).toList
  get := fun fs =>
    match (fs.filter fun f => f.1 ∈ numbers).getLast? with
    | none => some none
    | some f => (get f).map some
  put_numbers := by
    intro o f hf
    cases o with
    | none => cases hf
    | some a =>
        obtain rfl := List.mem_singleton.mp hf
        exact hnumbers a
  get_put := by
    intro o fs _ hfs
    simp only [hfs]
    cases o with
    | none => rfl
    | some a => simp [hget]
  get_ok := fun _ _ _ => rfl

@[simp] theorem oneof_ok {numbers : List ℕ} {put : α → Field} {get : Field → Option α}
    {hnumbers : ∀ a, (put a).1 ∈ numbers} {hget : ∀ a, get (put a) = some a} {o : Option α} :
    (oneof numbers put get hnumbers hget).ok o = true := rfl

def encode (body : Body M) (m : M) : Bytes := encodeFields (body.put m)

def decode (body : Body M) (bs : Bytes) : Option M :=
  (decodeFields bs.length bs).bind body.get

theorem decode_encode (body : Body M) {m : M} (h : body.ok m = true) :
    body.decode (body.encode m) = some m := by
  have hall : (body.put m).filter (fun f => f.1 ∈ body.numbers) = body.put m := by
    rw [List.filter_eq_self]
    intro f hf
    simpa using body.put_numbers m f hf
  rw [decode, encode, decodeFields_encodeFields _ (length_le_encodeFields _), Option.bind_some]
  exact body.get_put m _ h hall

def codec (body : Body M) : Codec M where
  marshal := fun m =>
    if body.ok m then .ok (body.encode m)
    else .error [.lit "string field contains invalid UTF-8"]
  unmarshal := fun bs =>
    match body.decode bs with
    | some m => .ok m
    | none => .error [.lit "proto: cannot parse invalid wire-format data"]

theorem decode_ok (body : Body M) {bs : Bytes} {m : M} (h : body.decode bs = some m) :
    body.ok m = true := by
  obtain ⟨fs, _, hget⟩ := Option.bind_eq_some_iff.mp h
  exact body.get_ok fs m hget

theorem codec_lawful (body : Body M) {Encodable : M → Prop}
    (h : ∀ m, Encodable m ↔ body.ok m = true) : body.codec.Lawful Encodable where
  marshal_ok := fun m hm => ⟨body.encode m, by simp [codec, (h m).mp hm]⟩
  unmarshal_marshal := by
    intro m b hb
    simp only [codec] at hb ⊢
    split at hb
    · rename_i hok
      cases hb
      rw [body.decode_encode hok]
    · cases hb
  unmarshal_encodable := by
    intro b m hb
    simp only [codec] at hb
    split at hb
    · rename_i hdec
      cases hb
      exact (h m).mpr (body.decode_ok hdec)
    · cases hb

end Body

namespace Kind

variable {M : Type}

def lens (vs : List Value) : List Bytes :=
  vs.filterMap fun v =>
    match v with
    | .len b => some b
    | .varint _ => none

def varints (vs : List Value) : List ℕ :=
  vs.filterMap fun v =>
    match v with
    | .varint n => some n
    | .len _ => none

@[simp] theorem lens_map_len (bs : List Bytes) : lens (bs.map Value.len) = bs := by
  rw [lens, List.filterMap_map]
  exact List.filterMap_some

/-- A scalar that is written only when it is not the default. -/
def bytes : Kind Bytes where
  ok := fun _ => true
  put := fun b => if b = [] then [] else [.len b]
  get := fun vs => some ((lens vs).getLast?.getD [])
  get_put := by
    intro b _
    by_cases hb : b = [] <;> simp [hb, lens]
  get_ok := by simp

@[simp] theorem bytes_ok (b : Bytes) : bytes.ok b = true := rfl

def string : Kind GoString where
  ok := fun s => utf8Valid s
  put := bytes.put
  get := fun vs => (bytes.get vs).filter fun s => utf8Valid s
  get_put := by
    intro s hs
    rw [bytes.get_put s rfl, Option.filter_some, if_pos hs]
  get_ok := by
    intro vs s hs
    exact (Option.filter_eq_some_iff.mp hs).2

@[simp] theorem string_ok (s : GoString) : string.ok s = utf8Valid s := rfl

def uint : Kind ℕ where
  ok := fun _ => true
  put := fun n => if n = 0 then [] else [.varint n]
  get := fun vs => some ((varints vs).getLast?.getD 0)
  get_put := by
    intro n _
    by_cases hn : n = 0 <;> simp [hn, varints]
  get_ok := by simp

@[simp] theorem uint_ok (n : ℕ) : uint.ok n = true := rfl

def bool : Kind Bool where
  ok := fun _ => true
  put := fun b => uint.put b.toNat
  get := fun vs => (uint.get vs).map fun n => n ≠ 0
  get_put := by
    intro b _
    rw [uint.get_put _ rfl]
    cases b <;> rfl
  get_ok := by simp

@[simp] theorem bool_ok (b : Bool) : bool.ok b = true := rfl

/-- The varint of a signed integer, which has 64 bits if it is negative. -/
def ofInt (i : Int) : ℕ := if 0 ≤ i then i.toNat else (2 ^ 64 + i).toNat

/-- The signed integer of a varint cut to `2 * half` values. -/
def toInt (half n : ℕ) : Int :=
  if n % (2 * half) < half then ((n % (2 * half) : ℕ) : Int)
  else ((n % (2 * half) : ℕ) : Int) - ((2 * half : ℕ) : Int)

theorem toInt_ofInt {half k : ℕ} (hk : 2 ^ 64 = 2 * half * k) {i : Int}
    (hlo : -(half : Int) ≤ i) (hhi : i < half) : toInt half (ofInt i) = i := by
  by_cases h : 0 ≤ i
  · have hmod : i.toNat % (2 * half) = i.toNat := Nat.mod_eq_of_lt (by omega)
    rw [ofInt, if_pos h, toInt, hmod, if_pos (by omega)]
    omega
  -- the varint has 64 bits, and the type keeps the low ones of them
  · obtain ⟨k, rfl⟩ : ∃ k', k = k' + 1 := Nat.exists_eq_succ_of_ne_zero (by rintro rfl; omega)
    rw [Nat.mul_add, Nat.mul_one] at hk
    have hsplit : (2 ^ 64 + i).toNat = 2 * half * k + (2 * half + i).toNat := by
      generalize 2 * half * k = p at hk ⊢
      omega
    have hmod : (2 * half * k + (2 * half + i).toNat) % (2 * half) = (2 * half + i).toNat := by
      rw [Nat.mul_add_mod]
      exact Nat.mod_eq_of_lt (by omega)
    rw [ofInt, if_neg h, hsplit, toInt, hmod, if_neg (by omega)]
    omega

theorem toInt_bounds {half : ℕ} (h : 0 < half) (n : ℕ) :
    -(half : Int) ≤ toInt half n ∧ toInt half n < half := by
  have hlt : n % (2 * half) < 2 * half := Nat.mod_lt _ (by omega)
  simp only [toInt]
  split
  · omega
  · omega

/-- An `int32` or an `int64`. -/
def int (half k : ℕ) (hk : 2 ^ 64 = 2 * half * k) : Kind Int where
  ok := fun i => -(half : Int) ≤ i ∧ i < half
  put := fun i => uint.put (ofInt i)
  get := fun vs => (uint.get vs).map (toInt half)
  get_put := by
    intro i hi
    have hi := of_decide_eq_true hi
    rw [uint.get_put _ rfl, Option.map_some, toInt_ofInt hk hi.1 hi.2]
  get_ok := by
    intro vs i hi
    obtain ⟨n, _, rfl⟩ := Option.map_eq_some_iff.mp hi
    have hpos : 0 < half := by
      rcases Nat.eq_zero_or_pos half with rfl | hpos
      · simp at hk
      · exact hpos
    exact decide_eq_true (toInt_bounds hpos n)

def int32 : Kind Int := int (2 ^ 31) (2 ^ 32) rfl

def int64 : Kind Int := int (2 ^ 63) 1 rfl

@[simp] theorem int32_ok (i : Int) : int32.ok i = true ↔ -2 ^ 31 ≤ i ∧ i < 2 ^ 31 := by
  simp [int32, int]

@[simp] theorem int64_ok (i : Int) : int64.ok i = true ↔ -2 ^ 63 ≤ i ∧ i < 2 ^ 63 := by
  simp [int64, int]

/-- A `uint64` that records whether it was set. -/
def optionalUint : Kind (Option ℕ) where
  ok := fun _ => true
  put := fun o => o.toList.map .varint
  get := fun vs => some (varints vs).getLast?
  get_put := by
    intro o _
    cases o <;> simp [varints]
  get_ok := by simp

/-- An embedded message that may be absent, as its bytes. -/
def optionalBytes : Kind (Option Bytes) where
  ok := fun _ => true
  put := fun o => o.toList.map .len
  get := fun vs => some (lens vs).getLast?
  get_put := by
    intro o _
    rw [lens_map_len]
    cases o <;> rfl
  get_ok := by simp

def repeatedBytes : Kind (List Bytes) where
  ok := fun _ => true
  put := fun bs => bs.map .len
  get := fun vs => some (lens vs)
  get_put := by simp
  get_ok := by simp

@[simp] theorem repeatedBytes_ok (bs : List Bytes) : repeatedBytes.ok bs = true := rfl

theorem mapM_decode_ok (body : Body M) {bs : List Bytes} {ms : List M}
    (h : bs.mapM body.decode = some ms) : ∀ m ∈ ms, body.ok m = true := by
  induction bs generalizing ms with
  | nil =>
      cases h
      simp
  | cons b bs ih =>
      simp only [List.mapM_cons, Option.bind_eq_bind, Option.bind_eq_some_iff, Option.pure_def,
        Option.some.injEq] at h
      obtain ⟨m, hm, ms', hms', rfl⟩ := h
      intro m' hm'
      rcases List.mem_cons.mp hm' with rfl | hm'
      · exact body.decode_ok hm
      · exact ih hms' m' hm'

theorem mapM_decode_encode (body : Body M) {ms : List M} (h : ∀ m ∈ ms, body.ok m = true) :
    (ms.map body.encode).mapM body.decode = some ms := by
  induction ms with
  | nil => rfl
  | cons m ms ih =>
      have hhead := body.decode_encode (h m List.mem_cons_self)
      have htail := ih fun m' hm' => h m' (List.mem_cons_of_mem m hm')
      simp [List.mapM_cons, hhead, htail]

/-- Embedded messages, in order. -/
def messages (body : Body M) : Kind (List M) where
  ok := fun ms => ms.all body.ok
  put := fun ms => ms.map fun m => .len (body.encode m)
  get := fun vs => (lens vs).mapM body.decode
  get_put := by
    intro ms hms
    have hlens : lens (ms.map fun m => .len (body.encode m)) = ms.map body.encode := by
      rw [← lens_map_len (ms.map body.encode), List.map_map]
      rfl
    rw [hlens]
    exact mapM_decode_encode body (List.all_eq_true.mp hms)
  get_ok := by
    intro vs ms hms
    exact List.all_eq_true.mpr (mapM_decode_ok body hms)

@[simp] theorem messages_ok (body : Body M) (ms : List M) :
    (messages body).ok ms = true ↔ ∀ m ∈ ms, body.ok m = true := List.all_eq_true

/-- An embedded message that may be absent. -/
def message (body : Body M) : Kind (Option M) where
  ok := fun o => o.all body.ok
  put := fun o => (messages body).put o.toList
  get := fun vs => ((messages body).get vs).map List.getLast?
  get_put := by
    intro o ho
    have hall : o.toList.all body.ok = true := by
      cases o with
      | none => rfl
      | some m => simpa using ho
    rw [(messages body).get_put o.toList hall]
    cases o <;> rfl
  get_ok := by
    intro vs o ho
    obtain ⟨ms, hms, rfl⟩ := Option.map_eq_some_iff.mp ho
    have hall := List.all_eq_true.mp ((messages body).get_ok vs ms hms)
    cases hlast : ms.getLast? with
    | none => rfl
    | some m => exact hall m (List.mem_of_getLast? hlast)

@[simp] theorem message_ok (body : Body M) (o : Option M) :
    (message body).ok o = true ↔ ∀ m, o = some m → body.ok m = true := by
  cases o <;> simp [message]

end Kind

end Protobuf
