import ForgeRelay.Bytes

/-!
# UTF-8

`encode` and `decode` pass between texts and octets.  `Front.of` says what the octets in front
amount to: a scalar with its width, a broken sequence with the number of octets that can be told
to be broken, or a sequence that the end of the input cuts off.  `firstFault` and `lossy` walk
the octets with it; `lossy` puts one replacement character for each broken or cut sequence.
-/

namespace ForgeRelay.Utf8

def encode (s : String) : Bytes := s.toByteArray.data.toList

/-- why octets are no UTF-8 text; `index` is the number of octets before the bad sequence -/
inductive Fault where
  | invalid (width index : Nat)
  | incomplete (index : Nat)
  deriving DecidableEq, Repr

def Fault.message : Fault → String
  | .invalid width index => s!"invalid utf-8 sequence of {width} bytes from index {index}"
  | .incomplete index => s!"incomplete utf-8 byte sequence from index {index}"

/-! ## the octets in front -/

inductive Front where
  | scalar (c : Char) (width : Nat)
  | broken (width : Nat)
  | cut

def isContinuation (b : UInt8) : Bool := 0x80 ≤ b && b ≤ 0xbf

/-- the range of the second octet, which keeps out overlong forms, surrogates and values past
the last scalar -/
def secondRange (lead : UInt8) : UInt8 × UInt8 :=
  if lead = 0xe0 then (0xa0, 0xbf)
  else if lead = 0xed then (0x80, 0x9f)
  else if lead = 0xf0 then (0x90, 0xbf)
  else if lead = 0xf4 then (0x80, 0x8f)
  else (0x80, 0xbf)

def fitsSecond (lead b : UInt8) : Bool := (secondRange lead).1 ≤ b && b ≤ (secondRange lead).2

/-- number of octets announced by the first one; 0 if it can start nothing -/
def leadWidth (lead : UInt8) : Nat :=
  if lead < 0x80 then 1
  else if 0xc2 ≤ lead && lead ≤ 0xdf then 2
  else if 0xe0 ≤ lead && lead ≤ 0xef then 3
  else if 0xf0 ≤ lead && lead ≤ 0xf4 then 4
  else 0

private def low6 (b : UInt8) : Nat := b.toNat % 64

def Front.of (lead : UInt8) (rest : Bytes) : Front :=
  match leadWidth lead, rest with
  | 1, _ => .scalar (Char.ofNat lead.toNat) 1
  | 2, [] => .cut
  | 2, b :: _ =>
    if isContinuation b then .scalar (Char.ofNat (lead.toNat % 32 * 64 + low6 b)) 2 else .broken 1
  | 3, [] => .cut
  | 3, b :: rest =>
    if !fitsSecond lead b then .broken 1 else
    match rest with
    | [] => .cut
    | c :: _ =>
      if isContinuation c then
        .scalar (Char.ofNat ((lead.toNat % 16 * 64 + low6 b) * 64 + low6 c)) 3
      else .broken 2
  | 4, [] => .cut
  | 4, b :: rest =>
    if !fitsSecond lead b then .broken 1 else
    match rest with
    | [] => .cut
    | c :: rest =>
      if !isContinuation c then .broken 2 else
      match rest with
      | [] => .cut
      | d :: _ =>
        if isContinuation d then
          .scalar (Char.ofNat (((lead.toNat % 8 * 64 + low6 b) * 64 + low6 c) * 64 + low6 d)) 4
        else .broken 3
  | _, _ => .broken 1

/-! ## whole inputs -/

/-- the first fault at or after octet `index`; `skip` octets belong to a scalar already seen -/
def faultFrom (index : Nat) : Nat → Bytes → Option Fault
  | _, [] => none
  | skip + 1, _ :: rest => faultFrom (index + 1) skip rest
  | 0, b :: rest =>
    match Front.of b rest with
    | .scalar _ width => faultFrom (index + 1) (width - 1) rest
    | .broken width => some (.invalid width index)
    | .cut => some (.incomplete index)

def firstFault (bs : Bytes) : Option Fault := faultFrom 0 0 bs

def decode (bs : Bytes) : Except Fault String :=
  match String.fromUTF8? ⟨bs.toArray⟩ with
  | some s => .ok s
  | none => .error ((firstFault bs).getD (.incomplete bs.length))

def decode? (bs : Bytes) : Option String := String.fromUTF8? ⟨bs.toArray⟩

def replacement : Char := '\ufffd'

/-- `skip` octets belong to a sequence already written -/
def lossyFrom : Nat → Bytes → List Char
  | _, [] => []
  | skip + 1, _ :: rest => lossyFrom skip rest
  | 0, b :: rest =>
    match Front.of b rest with
    | .scalar c width => c :: lossyFrom (width - 1) rest
    | .broken width => replacement :: lossyFrom (width - 1) rest
    | .cut => [replacement]

/-- reads every octet list as a text -/
def lossy (bs : Bytes) : String := String.ofList (lossyFrom 0 bs)

/-! ## encode and decode are inverse -/

theorem decode?_encode (s : String) : decode? (encode s) = some s := by
  simp [decode?, encode, String.fromUTF8?, s.isValidUTF8]
  rfl

theorem encode_of_decode? {bs : Bytes} {s : String} (h : decode? bs = some s) : encode s = bs := by
  unfold decode? String.fromUTF8? at h
  split at h
  · rename_i hv
    cases h
    simp [encode, String.fromUTF8]
  · cases h

theorem decode_eq_ok {bs : Bytes} {s : String} : decode bs = .ok s ↔ decode? bs = some s := by
  unfold decode decode?
  cases String.fromUTF8? ⟨bs.toArray⟩ <;> simp

theorem length_encode (s : String) : (encode s).length = s.utf8ByteSize := by
  rw [encode, Array.length_toList]
  rfl

theorem encode_eq_nil {s : String} : encode s = [] ↔ s = "" := by
  constructor
  · intro h
    have hs := decode?_encode s
    rw [h] at hs
    exact (Option.some.inj hs).symm
  · rintro rfl
    rfl

/-! ## ASCII -/

theorem encode_ofList (cs : List Char) :
    encode (String.ofList cs) = cs.flatMap String.utf8EncodeChar := by
  simp [encode, List.utf8Encode]

theorem toNat_charOf {b : UInt8} (h : b < 0x80) : (Char.ofNat b.toNat).val.toNat = b.toNat := by
  have hn : b.toNat < 128 := h
  rw [Char.ofNat, dif_pos (Or.inl (by omega))]
  rfl

theorem utf8EncodeChar_of_lt {b : UInt8} (h : b < 0x80) :
    String.utf8EncodeChar (Char.ofNat b.toNat) = [b] := by
  have hn : b.toNat < 128 := h
  unfold String.utf8EncodeChar
  dsimp only
  rw [toNat_charOf h, if_pos (by omega)]
  simp

/-- ASCII octets are the text of their characters -/
theorem encode_ofList_charOf {bs : Bytes} (h : ∀ b ∈ bs, b < 0x80) :
    encode (String.ofList (bs.map fun b => Char.ofNat b.toNat)) = bs := by
  rw [encode_ofList, List.flatMap_map]
  induction bs with
  | nil => rfl
  | cons b bs ih =>
    rw [List.flatMap_cons, utf8EncodeChar_of_lt (h b (List.mem_cons_self ..)),
      ih fun c hc => h c (List.mem_cons_of_mem _ hc)]
    rfl

theorem decode?_ascii {bs : Bytes} (h : ∀ b ∈ bs, b < 0x80) :
    decode? bs = some (String.ofList (bs.map fun b => Char.ofNat b.toNat)) := by
  have hd := decode?_encode (String.ofList (bs.map fun b => Char.ofNat b.toNat))
  rwa [encode_ofList_charOf h] at hd

theorem exists_decode? {bs : Bytes} (h : ∀ b ∈ bs, b < 0x80) : ∃ s, decode? bs = some s :=
  ⟨_, decode?_ascii h⟩

end ForgeRelay.Utf8
