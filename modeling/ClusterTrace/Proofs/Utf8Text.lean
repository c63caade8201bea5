import ClusterTrace.Text.Utf8

/-!
# Reading back a text in UTF-8

The bytes of a text are those of its characters in turn. Reading takes the bytes of one character at
a time and gives the text back. A byte below 0x80 is always a character of its own, so the special
bytes of a file are the special characters of its text.
-/

namespace ClusterTrace.Utf8

/-- The bytes of some characters. -/
def bytes (text : List Char) : Bytes := text.flatMap String.utf8EncodeChar

/-- A byte array is listed from the front, with the bytes so far in reverse. -/
theorem toList_loop {array : ByteArray} {i left : Nat} (h : i + left = array.size) (done : Bytes) :
    ByteArray.toList.loop array i done = done.reverse ++ array.data.toList.drop i := by
  have hsize : array.data.size = array.size := rfl
  have hlength : array.data.toList.length = array.size := Array.length_toList
  induction left generalizing i done with
  | zero =>
    rw [ByteArray.toList.loop, if_neg (by omega), List.drop_of_length_le (by omega),
      List.append_nil]
  | succ left ih =>
    have hi : i < array.data.size := by omega
    have hget : array.get! i = array.data.toList[i] := by
      rw [Array.getElem_toList]
      exact getElem!_pos array.data i hi
    rw [ByteArray.toList.loop, if_pos (by omega), ih (by omega), hget, List.reverse_cons,
      List.append_assoc, List.singleton_append, List.getElem_cons_drop]

theorem encode_eq (s : String) : encode s = bytes s.toList := by
  obtain ⟨text, rfl⟩ : ∃ text, s = String.ofList text := ⟨s.toList, String.ofList_toList.symm⟩
  rw [String.toList_ofList, encode, ByteArray.toList, toList_loop (Nat.zero_add _),
    List.reverse_nil, List.nil_append, List.drop_zero, String.toUTF8_eq_toByteArray,
    String.toByteArray_ofList]
  exact List.toList_data_toByteArray

/-- Texts are encoded character by character. -/
theorem encode_append (s t : String) : encode (s ++ t) = encode s ++ encode t := by
  rw [encode_eq, encode_eq, encode_eq, String.toList_append, bytes, List.flatMap_append]
  rfl

/-! ## One character -/

/-- The bytes of a character: the bits of its number, six to a byte from the right, below the marks
of the first byte and of the others. -/
inductive Encoded (c : Char) : Bytes → Prop where
  | one {a : UInt8} (high : c.toNat < 0x80) (first : a.toNat = c.toNat) : Encoded c [a]
  | two {a b : UInt8} (low : 0x80 ≤ c.toNat) (high : c.toNat < 0x800)
      (first : a.toNat = c.toNat / 64 % 32 + 0xC0) (second : b.toNat = c.toNat % 64 + 0x80) :
      Encoded c [a, b]
  | three {a b d : UInt8} (low : 0x800 ≤ c.toNat) (high : c.toNat < 0x10000)
      (first : a.toNat = c.toNat / 4096 % 16 + 0xE0) (second : b.toNat = c.toNat / 64 % 64 + 0x80)
      (third : d.toNat = c.toNat % 64 + 0x80) : Encoded c [a, b, d]
  | four {a b d e : UInt8} (low : 0x10000 ≤ c.toNat)
      (first : a.toNat = c.toNat / 262144 % 8 + 0xF0)
      (second : b.toNat = c.toNat / 4096 % 64 + 0x80) (third : d.toNat = c.toNat / 64 % 64 + 0x80)
      (fourth : e.toNat = c.toNat % 64 + 0x80) : Encoded c [a, b, d, e]

/-- Every character has one of the four forms, by its number. The forms are one to four bytes
long. -/
theorem encoded (c : Char) : Encoded c (String.utf8EncodeChar c) := by
  have toNat_ofNat : ∀ n, n < 256 → (UInt8.ofNat n).toNat = n := fun n hn => by
    simp [Nat.mod_eq_of_lt hn]
  have hval : c.val.toNat = c.toNat := rfl
  unfold String.utf8EncodeChar
  simp only [hval]
  split
  next h1 => exact .one (by omega) (toNat_ofNat _ (by omega))
  next h1 =>
    split
    next h2 =>
      exact .two (by omega) (by omega) (toNat_ofNat _ (by omega)) (toNat_ofNat _ (by omega))
    next h2 =>
      split
      next h3 =>
        exact .three (by omega) (by omega) (toNat_ofNat _ (by omega)) (toNat_ofNat _ (by omega))
          (toNat_ofNat _ (by omega))
      next h3 =>
        exact .four (by omega) (toNat_ofNat _ (by omega)) (toNat_ofNat _ (by omega))
          (toNat_ofNat _ (by omega)) (toNat_ofNat _ (by omega))

/-- Only a character below 0x80 has a byte below 0x80. -/
theorem Encoded.toNat_of_mem {c : Char} {all : Bytes} (h : Encoded c all) {b : UInt8}
    (hb : b ∈ all) : b.toNat = c.toNat ∨ 0x80 ≤ b.toNat := by
  cases h with
  | one high hfirst =>
    obtain rfl := List.mem_singleton.mp hb
    exact .inl hfirst
  | two low high hfirst hsecond =>
    simp only [List.mem_cons, List.not_mem_nil, or_false] at hb
    rcases hb with rfl | rfl <;> omega
  | three low high hfirst hsecond hthird =>
    simp only [List.mem_cons, List.not_mem_nil, or_false] at hb
    rcases hb with rfl | rfl | rfl <;> omega
  | four low hfirst hsecond hthird hfourth =>
    simp only [List.mem_cons, List.not_mem_nil, or_false] at hb
    rcases hb with rfl | rfl | rfl | rfl <;> omega

theorem toNat_scalar (c : Char) :
    c.toNat < 0xD800 ∨ 0xDFFF < c.toNat ∧ c.toNat < 0x110000 := c.valid

theorem isContinuation_of {b : UInt8} {n : Nat} (hb : b.toNat = n % 64 + 0x80) :
    isContinuation b = true := by
  simp only [isContinuation, hb, Bool.and_eq_true, decide_eq_true_eq]
  omega

theorem payload_of {b : UInt8} {n : Nat} (hb : b.toNat = n % 64 + 0x80) : payload b = n % 64 := by
  rw [payload, hb]
  omega

/-- The second byte of a character of three or four bytes is within the bounds that its first byte
sets. These leave out numbers that need fewer bytes, surrogates and numbers that are too large. -/
theorem secondAllowed_of {first second : UInt8} (hlow : 0x80 ≤ second.toNat)
    (hhigh : second.toNat < 0xC0) (hoverlong3 : first.toNat = 0xE0 → 0xA0 ≤ second.toNat)
    (hoverlong4 : first.toNat = 0xF0 → 0x90 ≤ second.toNat)
    (hsurrogate : first.toNat = 0xED → second.toNat < 0xA0)
    (hlarge : first.toNat = 0xF4 → second.toNat < 0x90) : secondAllowed first second = true := by
  simp only [secondAllowed, ← UInt8.toNat_inj, Bool.and_eq_true, decide_eq_true_eq,
    UInt8.reduceToNat]
  constructor
  · split
    · exact hoverlong3 ‹_›
    · split
      · exact hoverlong4 ‹_›
      · exact hlow
  · split
    · exact hsurrogate ‹_›
    · split
      · exact hlarge ‹_›
      · exact hhigh

/-- Reading the bytes of a character gives it back, whatever follows them. One case for each form,
in which the payloads are put together again. -/
theorem lead_of_encoded {c : Char} {first : UInt8} {more : Bytes} (h : Encoded c (first :: more))
    (rest : Bytes) : lead first (more ++ rest) = .scalar c more.length := by
  have hscalar := toNat_scalar c
  cases h with
  | one high hfirst =>
    rw [lead, if_pos (by omega), hfirst, Char.ofNat_toNat]
    rfl
  | @two _ b low high hfirst hsecond =>
    have hn : first.toNat % 32 * 64 + payload b = c.toNat := by
      rw [payload_of hsecond, hfirst]
      omega
    rw [lead, if_neg (by omega), if_neg (by omega), if_pos (by omega), List.cons_append, lead2,
      if_pos (isContinuation_of hsecond), hn, Char.ofNat_toNat]
    rfl
  | @three _ b d low high hfirst hsecond hthird =>
    have hn : (first.toNat % 16 * 64 + payload b) * 64 + payload d = c.toNat := by
      rw [payload_of hsecond, payload_of hthird, hfirst]
      omega
    have hallowed : secondAllowed first b = true := by
      apply secondAllowed_of <;> omega
    rw [lead, if_neg (by omega), if_neg (by omega), if_neg (by omega), if_pos (by omega),
      List.cons_append, List.cons_append, lead3, hallowed, isContinuation_of hthird, hn,
      Char.ofNat_toNat]
    rfl
  | @four _ b d e low hfirst hsecond hthird hfourth =>
    have hn : ((first.toNat % 8 * 64 + payload b) * 64 + payload d) * 64 + payload e =
        c.toNat := by
      rw [payload_of hsecond, payload_of hthird, payload_of hfourth, hfirst]
      omega
    have hallowed : secondAllowed first b = true := by
      apply secondAllowed_of <;> omega
    rw [lead, if_neg (by omega), if_neg (by omega), if_neg (by omega), if_neg (by omega),
      if_pos (by omega), List.cons_append, List.cons_append, List.cons_append, lead4, hallowed,
      isContinuation_of hthird, isContinuation_of hfourth, hn, Char.ofNat_toNat]
    rfl

/-! ## A text -/

theorem decodeFrom?_skip (done : List Char) (position : Nat) (more rest : Bytes) :
    decodeFrom? done position more.length (more ++ rest) =
      decodeFrom? done (position + more.length) 0 rest := by
  induction more generalizing position with
  | nil => rfl
  | cons b more ih =>
    rw [List.length_cons, List.cons_append, decodeFrom?, ih, Nat.add_right_comm, Nat.add_assoc]

/-- Bytes of characters are decoded one character after the other, from wherever the decoder is. -/
theorem decodeFrom?_bytes (done : List Char) (position : Nat) (text : List Char) :
    decodeFrom? done position 0 (bytes text) = .ok (done.reverse ++ text) := by
  induction text generalizing done position with
  | nil => exact congrArg Except.ok (List.append_nil _).symm
  | cons c text ih =>
    have hc := encoded c
    rw [bytes, List.flatMap_cons]
    cases hbytes : String.utf8EncodeChar c with
    | nil =>
      rw [hbytes] at hc
      cases hc
    | cons first more =>
      rw [hbytes] at hc
      rw [List.cons_append, decodeFrom?, ← bytes]
      simp only [lead_of_encoded hc]
      rw [decodeFrom?_skip, ih, List.reverse_cons, List.append_assoc]
      rfl

/-- The decoder accepts what the encoder writes and gives it back. -/
theorem decode?_encode (s : String) : decode? (encode s) = .ok s.toList := by
  rw [encode_eq, decode?, decodeFrom?_bytes]
  rfl

/-- No text but the empty one is written without bytes. -/
theorem eq_empty_of_encode {s : String} (h : encode s = []) : s = "" := by
  have hs := decode?_encode s
  rw [h] at hs
  exact String.toList_eq_nil_iff.mp (Except.ok.inj hs).symm

/-- The byte of a character below 0x80 is nowhere but where the character is. -/
theorem mem_of_mem_bytes {c : Char} (hc : c.toNat < 0x80) {text : List Char}
    (h : UInt8.ofNat c.toNat ∈ bytes text) : c ∈ text := by
  obtain ⟨d, hd, hmem⟩ := List.mem_flatMap.mp h
  have hb : (UInt8.ofNat c.toNat).toNat = c.toNat := by
    simp [Nat.mod_eq_of_lt (Nat.lt_trans hc (by decide : 0x80 < 256))]
  have hdc : c.toNat = d.toNat := by
    rcases (encoded d).toNat_of_mem hmem with heq | hle
    · exact hb ▸ heq
    · omega
  rwa [← Char.ofNat_toNat c, hdc, Char.ofNat_toNat]

end ClusterTrace.Utf8
