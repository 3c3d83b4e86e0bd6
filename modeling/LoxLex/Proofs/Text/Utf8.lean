import LoxLex.Source

namespace LoxLex.Utf8

def bytes (cs : List Char) : List UInt8 :=
  cs.flatMap String.utf8EncodeChar

def size (cs : List Char) : Nat :=
  (bytes cs).length

variable {c d : Char} {cs ds : List Char} {b : UInt8}

@[simp]
theorem bytes_nil : bytes [] = [] :=
  rfl

@[simp]
theorem bytes_cons : bytes (c :: cs) = String.utf8EncodeChar c ++ bytes cs :=
  rfl

@[simp]
theorem bytes_append : bytes (cs ++ ds) = bytes cs ++ bytes ds :=
  List.flatMap_append

@[simp]
theorem size_nil : size [] = 0 :=
  rfl

@[simp]
theorem size_cons : size (c :: cs) = c.utf8Size + size cs := by
  simp [size]

@[simp]
theorem size_append : size (cs ++ ds) = size cs + size ds := by
  simp [size]

theorem size_singleton (c : Char) : size [c] = c.utf8Size := by
  simp

theorem size_pos (h : cs ≠ []) : 0 < size cs := by
  cases cs
  case nil       => contradiction
  case cons c cs =>
    rw [size_cons]
    exact Nat.add_pos_left c.utf8Size_pos _

theorem size_le_of_prefix (h : cs <+: ds) : size cs ≤ size ds := by
  have ⟨rest, hr⟩ := h
  rw [← hr, size_append]
  exact Nat.le_add_right ..

theorem eq_of_prefix_of_size_le (h : cs <+: ds) (hs : size ds ≤ size cs) : cs = ds := by
  have ⟨rest, hr⟩ := h
  cases rest
  case nil       => rw [← hr, List.append_nil]
  case cons c cs =>
    have := c.utf8Size_pos
    rw [← hr, size_append, size_cons] at hs
    omega

theorem add_size_cons_of_le {o : Nat} (h : c.val ≤ 127) : o + size (c :: cs) = o + 1 + size cs := by
  rw [size_cons, Char.utf8Size_eq_one_iff.mpr h, Nat.add_assoc]

theorem length_le_size : cs.length ≤ size cs := by
  induction cs
  case nil => exact Nat.le_refl _
  case cons c cs hi =>
    have := c.utf8Size_pos
    simp only [List.length_cons, size_cons]
    omega

theorem size_le_length : size cs ≤ 4 * cs.length := by
  induction cs
  case nil => exact Nat.le_refl _
  case cons c cs hi =>
    have := c.utf8Size_le_four
    simp only [List.length_cons, size_cons]
    omega

theorem toByteArray_bytes (cs : List Char) :
    (bytes cs).toByteArray = (String.ofList cs).toByteArray := by
  rw [String.toByteArray_ofList, List.utf8Encode, bytes]

theorem data_eq_bytes (s : String) : s.toByteArray.data.toList = bytes s.toList := by
  have := toByteArray_bytes s.toList
  rw [String.ofList_toList] at this
  rw [← this, List.toList_data_toByteArray]

theorem size_toList (s : String) : size s.toList = s.utf8ByteSize := by
  rw [size, ← data_eq_bytes, Array.length_toList, ByteArray.size_data]
  rfl

theorem isValid_size {s : String} (h : s.toList = cs ++ ds) :
    (⟨size cs⟩ : String.Pos.Raw).IsValid s := by
  refine String.Pos.Raw.isValid_iff_exists_append.mpr ⟨.ofList cs, .ofList ds, ?_, ?_⟩
  case refine_1 => rw [← String.ofList_append, ← h, String.ofList_toList]
  case refine_2 => rw [String.rawEndPos, ← size_toList, String.toList_ofList]

theorem fromUTF8?_toByteArray (s : String) : String.fromUTF8? s.toByteArray = some s :=
  dif_pos s.isValidUTF8

theorem fromUTF8?_bytes : String.fromUTF8? (bytes cs).toByteArray = some (.ofList cs) := by
  rw [toByteArray_bytes, fromUTF8?_toByteArray]

theorem toByteArray_of_fromUTF8? {bytes : ByteArray} {s : String}
    (h : String.fromUTF8? bytes = some s) : s.toByteArray = bytes := by
  unfold String.fromUTF8? at h
  split at h
  case isTrue  => cases h; rfl
  case isFalse => cases h

def lead (c : Char) : UInt8 :=
  (String.utf8EncodeChar c).headD 0

theorem encode_eq_cons (c : Char) : ∃ bs, String.utf8EncodeChar c = lead c :: bs := by
  have := c.utf8Size_pos
  have := String.length_utf8EncodeChar c
  cases h : String.utf8EncodeChar c
  case nil       => simp_all
  case cons b bs => exact ⟨bs, by simp [lead, h]⟩

-- The byte at the start of a text. At the end of a text it is zero.
def front (cs : List Char) : UInt8 :=
  (bytes cs).headD 0

theorem front_cons : front (c :: cs) = lead c := by
  have ⟨_, h⟩ := encode_eq_cons c
  simp [front, h]

theorem encode_of_le (h : c.val ≤ 127) : String.utf8EncodeChar c = [c.toUInt8] :=
  String.utf8EncodeChar_eq_singleton (Char.utf8Size_eq_one_iff.mpr h)

theorem lead_of_le (h : c.val ≤ 127) : lead c = c.toUInt8 := by
  rw [lead, encode_of_le h, List.headD_cons]

theorem val_ofUInt8 (b : UInt8) : (Char.ofUInt8 b).val = b.toUInt32 :=
  rfl

theorem ofUInt8_lead (h : c.val ≤ 127) : Char.ofUInt8 (lead c) = c := by
  have : c.val.toNat ≤ 127 := h
  apply Char.ext
  apply UInt32.toNat_inj.mp
  simp only [lead_of_le h, val_ofUInt8, UInt8.toNat_toUInt32, Char.toUInt8,
    UInt32.toNat_toUInt8]
  omega

theorem lt_ofUInt8 (h : 128 ≤ b) : 127 < (Char.ofUInt8 b).val := by
  have : 128 ≤ b.toNat := h
  rw [UInt32.lt_iff_toNat_lt, val_ofUInt8, UInt8.toNat_toUInt32]
  exact this

theorem le_ofNat_add {n k : Nat} (hk : 128 ≤ k) (hn : n + k < 256) : 128 ≤ UInt8.ofNat (n + k) := by
  rw [UInt8.le_iff_toNat_le, UInt8.toNat_ofNat']
  show 128 ≤ _
  omega

theorem le_of_mem_encode (h : 127 < c.val) : ∀ b ∈ String.utf8EncodeChar c, 128 ≤ b := by
  have hv : ¬c.val.toNat ≤ 127 := Nat.not_le.mpr h
  simp only [String.utf8EncodeChar, if_neg hv]
  repeat' split
  all_goals
    simp only [List.mem_cons, List.not_mem_nil, or_false, forall_eq_or_imp, forall_eq]
    repeat' apply And.intro
    all_goals exact le_ofNat_add (by omega) (by omega)

theorem le_lead (h : 127 < c.val) : 128 ≤ lead c := by
  have ⟨_, he⟩ := encode_eq_cons c
  exact le_of_mem_encode h _ (by rw [he]; exact List.mem_cons_self)

-- A test of bytes that all bytes of a character pass if the character passes a test of characters,
-- and none of them if it does not.
def Agrees (test : UInt8 → Bool) (p : Char → Bool) : Prop :=
  ∀ c, ∀ b ∈ String.utf8EncodeChar c, test b = p c

namespace Agrees

variable {test : UInt8 → Bool} {p : Char → Bool}

theorem lead (h : Agrees test p) (c : Char) : test (lead c) = p c := by
  have ⟨_, he⟩ := encode_eq_cons c
  exact h c _ (by rw [he]; exact List.mem_cons_self)

theorem not (h : Agrees test p) : Agrees (!test ·) (!p ·) :=
  fun c b hb => congrArg _ (h c b hb)

theorem front (h : Agrees test p) (h₀ : test 0 = false) : test (front cs) = cs.head?.any p := by
  cases cs
  case nil  => exact h₀
  case cons => rw [front_cons, h.lead, List.head?_cons, Option.any_some]

theorem takeWhile_bytes (h : Agrees test p) :
    (bytes cs).takeWhile test = bytes (cs.takeWhile p) := by
  induction cs
  case nil => rfl
  case cons c cs hi =>
    rw [bytes_cons, List.takeWhile_cons]
    cases hp : p c
    case true =>
      rw [List.takeWhile_append_of_pos fun b hb => (h c b hb).trans hp, hi]
      rfl
    case false =>
      have ⟨_, he⟩ := encode_eq_cons c
      have ht := (h.lead c).trans hp
      rw [he, List.cons_append, List.takeWhile_cons, ht]
      rfl

end Agrees

-- A test that only characters below 128 pass, made of their bytes.
theorem agrees_of_le {test : UInt8 → Bool} {p : Char → Bool}
    (hl : ∀ c, c.val ≤ 127 → test c.toUInt8 = p c) (hh : ∀ b, 128 ≤ b → test b = false)
    (hp : ∀ c, p c → c.val ≤ 127) : Agrees test p := by
  intro c b hb
  cases Decidable.em (c.val ≤ 127)
  case inl hc =>
    rw [encode_of_le hc, List.mem_singleton] at hb
    rw [hb, hl c hc]
  case inr hc =>
    have := mt (hp c) hc
    rw [hh b (le_of_mem_encode (UInt32.not_le.mp hc) b hb), Bool.eq_false_iff.mpr this]

theorem agrees_ofUInt8 {p : Char → Bool} (hp : ∀ c, p c → c.val ≤ 127) :
    Agrees (fun b => p (Char.ofUInt8 b)) p := by
  apply agrees_of_le _ _ hp
  case _ =>
    intro c hc
    rw [← lead_of_le hc, ofUInt8_lead hc]
  case _ =>
    intro b hb
    exact Bool.eq_false_iff.mpr fun h => UInt32.not_le.mpr (lt_ofUInt8 hb) (hp _ h)

theorem agrees_beq (h : d.val ≤ 127) : Agrees (· == d.toUInt8) (· == d) := by
  refine agrees_of_le (fun c hc => ?_) (fun b hb => ?_) (fun c hc => ?_)
  case refine_1 =>
    rw [Bool.eq_iff_iff, beq_iff_eq, beq_iff_eq]
    constructor
    case mp =>
      intro he
      rw [← ofUInt8_lead hc, ← ofUInt8_lead h, lead_of_le hc, lead_of_le h, he]
    case mpr => exact fun he => by rw [he]
  case refine_2 =>
    refine beq_eq_false_iff_ne.mpr fun hd => ?_
    have hd : d.toUInt8.toNat = b.toNat := hd ▸ rfl
    have hb : 128 ≤ b.toNat := hb
    have h : d.val.toNat ≤ 127 := h
    rw [Char.toUInt8, UInt32.toNat_toUInt8] at hd
    omega
  case refine_3 => exact beq_iff_eq.mp hc ▸ h

theorem mem_bytes (h : d.val ≤ 127) : d.toUInt8 ∈ bytes cs ↔ d ∈ cs := by
  rw [bytes, List.mem_flatMap]
  constructor
  case mp =>
    intro ⟨c, hc, hb⟩
    have he : (d.toUInt8 == d.toUInt8) = (c == d) := agrees_beq h c _ hb
    rw [beq_self_eq_true] at he
    exact beq_iff_eq.mp he.symm ▸ hc
  case mpr => exact fun hd => ⟨d, hd, by simp [encode_of_le h]⟩

theorem getLast?_of_bytes (h : d.val ≤ 127) (hl : (bytes cs).getLast? = some d.toUInt8) :
    cs.getLast? = some d := by
  rcases cs.eq_nil_or_concat with rfl | ⟨cs, c, rfl⟩
  case inl => simp at hl
  case inr =>
    have hc : bytes [c] ≠ [] := List.length_pos_iff.mp (size_pos (List.cons_ne_nil c []))
    rw [List.concat_eq_append, bytes_append, List.getLast?_append,
      List.getLast?_eq_some_getLast hc, Option.some_or, ← List.getLast?_eq_some_getLast hc] at hl
    have hm := (mem_bytes h).mp (List.mem_of_getLast? hl)
    simp [List.mem_singleton.mp hm]

theorem front_eq_iff (h : d.val ≤ 127) (h₀ : (0 : UInt8) ≠ d.toUInt8) :
    front cs = d.toUInt8 ↔ cs.head? = some d := by
  rw [← beq_iff_eq, (agrees_beq h).front (beq_eq_false_iff_ne.mpr h₀)]
  cases cs.head? <;> simp

end LoxLex.Utf8
