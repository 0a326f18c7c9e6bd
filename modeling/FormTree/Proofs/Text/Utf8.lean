import FormTree.Text.Utf8

/-!
# Decoding what was encoded

The bytes of a character are decoded as that character, whatever follows them, and so the bytes of a
text are decoded as the characters of that text.
-/

namespace FormTree.Utf8

/-- Whether bytes are a whole sequence, as their first one has it, that encodes `c`. -/
def Denotes (c : Char) : List UInt8 → Prop
  | [] => False
  | first :: bytes => following? first = some bytes.length ∧ char? (first :: bytes) = some c

/-! ### Decoding a whole sequence -/

/-- As many bytes as are asked for are taken, if none of them fails. -/
theorem take_append (bytes : List UInt8) (rest : List Delivery) :
    take bytes.length (bytes.map .ok ++ rest) = (.ok bytes, rest) := by
  induction bytes with
  | nil => rfl
  | cons b bytes ih =>
    rw [List.length_cons, List.map_cons, List.cons_append, take, ih]
    rfl

/-- A whole sequence is decoded as its character, and nothing after it is looked at. -/
theorem items_append {c : Char} {bytes : List UInt8} (h : Denotes c bytes) (rest : List Delivery) :
    items (bytes.map .ok ++ rest) = .ok c :: items rest := by
  rcases bytes with - | ⟨first, bytes⟩
  · exact h.elim
  · obtain ⟨hfollowing, hchar⟩ := h
    have hdecode : decode (.ok first) (bytes.map .ok ++ rest) = (.ok c, rest) := by
      rw [decode, hfollowing]
      dsimp only
      rw [take_append]
      dsimp only [Except.bind]
      rw [hchar]
    rw [List.map_cons, List.cons_append, items, hdecode]

/-! ### The sequence of a character -/

theorem toNat_ofNat_of_lt {n : Nat} (h : n < 256) : (UInt8.ofNat n).toNat = n := by
  rw [UInt8.toNat_ofNat']
  omega

/-- How many bytes follow a first byte, by its value. -/
theorem following?_ofNat {n : Nat} (h : n < 256) :
    following? (UInt8.ofNat n) =
      if n ≤ 0x7F then some 0
      else if 0xC2 ≤ n ∧ n ≤ 0xDF then some 1
      else if 0xE0 ≤ n ∧ n ≤ 0xEF then some 2
      else if 0xF0 ≤ n ∧ n ≤ 0xF4 then some 3
      else none := by
  simp [following?, UInt8.le_iff_toNat_le, toNat_ofNat_of_lt h]

/-- A continuation byte carries six bits. -/
theorem payload?_ofNat (n : Nat) : payload? (UInt8.ofNat (n % 0x40 + 0x80)) = some (n % 0x40) := by
  have hmod : n % 0x40 < 0x40 := Nat.mod_lt _ (by decide)
  simp only [payload?, UInt8.le_iff_toNat_le, toNat_ofNat_of_lt (by omega : n % 0x40 + 0x80 < 256)]
  simp
  omega

theorem scalar?_of_eq_toNat {least n : Nat} {c : Char} (hn : n = c.toNat) (h : least ≤ n) :
    scalar? least n = some c := by
  have hc : n.isValidChar := hn ▸ c.valid
  subst hn
  rw [scalar?, dif_pos hc, if_pos h]
  rfl

theorem toNat_lt (c : Char) : c.toNat < 0x110000 := by
  rcases c.valid with h | h
  · exact Nat.lt_trans h (by decide)
  · exact h.2

/-- What encodes a character: one byte to four, with seven, eleven, sixteen and twenty-one bits. -/
theorem utf8EncodeChar_eq (c : Char) :
    String.utf8EncodeChar c =
      if c.toNat ≤ 0x7F then [UInt8.ofNat c.toNat]
      else if c.toNat ≤ 0x7FF then
        [UInt8.ofNat (c.toNat / 64 % 0x20 + 0xC0), UInt8.ofNat (c.toNat % 0x40 + 0x80)]
      else if c.toNat ≤ 0xFFFF then
        [UInt8.ofNat (c.toNat / 4096 % 0x10 + 0xE0), UInt8.ofNat (c.toNat / 64 % 0x40 + 0x80),
          UInt8.ofNat (c.toNat % 0x40 + 0x80)]
      else
        [UInt8.ofNat (c.toNat / 262144 % 0x08 + 0xF0), UInt8.ofNat (c.toNat / 4096 % 0x40 + 0x80),
          UInt8.ofNat (c.toNat / 64 % 0x40 + 0x80), UInt8.ofNat (c.toNat % 0x40 + 0x80)] := rfl

/-- What encodes a character denotes it. -/
theorem denotes_utf8EncodeChar (c : Char) : Denotes c (String.utf8EncodeChar c) := by
  have hmax := toNat_lt c
  rw [utf8EncodeChar_eq]
  -- One case for each length of a code.
  by_cases h1 : c.toNat ≤ 0x7F
  · have hfirst : UInt8.ofNat c.toNat ≤ 0x7F := by
      rw [UInt8.le_iff_toNat_le, toNat_ofNat_of_lt (by omega)]
      exact h1
    rw [if_pos h1, Denotes, following?_ofNat (by omega), if_pos h1, char?, if_pos hfirst,
      toNat_ofNat_of_lt (by omega)]
    exact ⟨rfl, scalar?_of_eq_toNat rfl (Nat.zero_le _)⟩
  by_cases h2 : c.toNat ≤ 0x7FF
  · rw [if_neg h1, if_pos h2, Denotes, following?_ofNat (by omega), if_neg (by omega),
      if_pos (by omega), char?, payload?_ofNat, toNat_ofNat_of_lt (by omega)]
    exact ⟨rfl, scalar?_of_eq_toNat (by omega) (by omega)⟩
  by_cases h3 : c.toNat ≤ 0xFFFF
  · rw [if_neg h1, if_neg h2, if_pos h3, Denotes, following?_ofNat (by omega), if_neg (by omega),
      if_neg (by omega), if_pos (by omega), char?, payload?_ofNat, payload?_ofNat,
      toNat_ofNat_of_lt (by omega)]
    exact ⟨rfl, scalar?_of_eq_toNat (by omega) (by omega)⟩
  · rw [if_neg h1, if_neg h2, if_neg h3, Denotes, following?_ofNat (by omega), if_neg (by omega),
      if_neg (by omega), if_neg (by omega), if_pos (by omega), char?, payload?_ofNat,
      payload?_ofNat, payload?_ofNat, toNat_ofNat_of_lt (by omega)]
    exact ⟨rfl, scalar?_of_eq_toNat (by omega) (by omega)⟩

/-! ### Texts -/

/-- The bytes of an array are gathered in order. -/
theorem toList_loop_eq (bytes : ByteArray) (i : Nat) (r : List UInt8) :
    ByteArray.toList.loop bytes i r = r.reverse ++ bytes.data.toList.drop i := by
  fun_induction ByteArray.toList.loop bytes i r with
  | case1 i r hi ih =>
    have hlt : i < bytes.data.toList.length := hi
    have hget : bytes.get! i = bytes.data.toList[i] := getElem!_pos bytes.data i hi
    rw [ih, List.drop_eq_getElem_cons hlt, hget, List.reverse_cons, List.append_assoc]
    rfl
  | case2 i r hi => rw [List.drop_eq_nil_of_le (Nat.le_of_not_lt hi), List.append_nil]

/-- The bytes of a text are those of its characters. -/
theorem toList_toUTF8 (text : String) :
    text.toUTF8.toList = text.toList.flatMap String.utf8EncodeChar := by
  rw [String.toUTF8_eq_toByteArray, ← String.utf8Encode_toList, ByteArray.toList, toList_loop_eq,
    List.utf8Encode, List.toList_data_toByteArray]
  rfl

/-- **Decoding inverts encoding.** The bytes of a text are decoded as its characters, whatever the
stream delivers after them. -/
theorem items_toUTF8_append (text : String) (rest : List Delivery) :
    items (text.toUTF8.toList.map .ok ++ rest) = text.toList.map .ok ++ items rest := by
  rw [toList_toUTF8]
  induction text.toList with
  | nil => rfl
  | cons c cs ih =>
    rw [List.flatMap_cons, List.map_append, List.append_assoc,
      items_append (denotes_utf8EncodeChar c), ih, List.map_cons, List.cons_append]

/-! ### Streams that fail -/

/-- Taking items leaves the rest of a stream. -/
theorem take_suffix (n : Nat) (stream : List Delivery) : (take n stream).2 <:+ stream := by
  fun_induction take n stream with
  | case1 rest => exact List.suffix_rfl
  | case2 => exact List.suffix_rfl
  | case3 n e rest => exact List.suffix_cons _ rest
  | case4 n b rest bytes rest' h ih =>
    rw [h] at ih
    exact ih.trans (List.suffix_cons _ rest)

/-- Taking bytes fails as the stream does. -/
theorem mem_of_take {e : IoFailure} {n : Nat} {stream : List Delivery}
    (h : (take n stream).1 = .error (.io e)) : .error e ∈ stream := by
  fun_induction take n stream with
  | case1 rest => cases h
  | case2 => cases h
  | case3 n e rest =>
    cases h
    exact List.mem_cons_self
  | case4 n b rest bytes rest' htake ih =>
    rw [htake] at ih
    rcases bytes with fault | bytes
    · cases h
      exact List.mem_cons_of_mem _ (ih rfl)
    · cases h

/-- What a first byte is decoded to with the bytes that it calls for. -/
theorem decode_of_following {first : UInt8} {n : Nat} (h : following? first = some n)
    (stream : List Delivery) :
    decode (.ok first) stream =
      ((take n stream).1.bind fun bytes =>
        match char? (first :: bytes) with
        | some c => .ok c
        | none => .error .invalidUtf8, (take n stream).2) := by
  rewrite [decode, h]
  rfl

/-- A byte that begins nothing is no UTF-8. -/
theorem decode_of_not_following {first : UInt8} (h : following? first = none)
    (stream : List Delivery) : decode (.ok first) stream = (.error .invalidUtf8, stream) := by
  rw [decode, h]

theorem decode_suffix (d : Delivery) (stream : List Delivery) : (decode d stream).2 <:+ stream := by
  rcases d with e | first
  · exact List.suffix_rfl
  rcases h : following? first with - | n
  · rewrite [decode_of_not_following h]
    exact List.suffix_rfl
  · rw [decode_of_following h]
    exact take_suffix n stream

/-- A failure among the items of a stream is one of the stream. -/
theorem mem_of_decode {e : IoFailure} {d : Delivery} {stream : List Delivery}
    (h : (decode d stream).1 = .error (.io e)) : .error e ∈ d :: stream := by
  rcases d with f | first
  · cases h
    exact List.mem_cons_self
  rcases hfollowing : following? first with - | n
  · rw [decode_of_not_following hfollowing] at h
    cases h
  rw [decode_of_following hfollowing] at h
  rcases htake : (take n stream).1 with fault | bytes <;> rw [htake] at h
  · cases h
    exact List.mem_cons_of_mem _ (mem_of_take htake)
  · -- bytes that were delivered are at worst no UTF-8
    dsimp only [Except.bind] at h
    split at h <;> cases h

/-- A failure among the items is one of the stream. -/
theorem mem_of_mem_items {e : IoFailure} {stream : List Delivery}
    (h : .error (.io e) ∈ items stream) : .error e ∈ stream := by
  fun_induction items stream with
  | case1 => cases h
  | case2 d stream ih =>
    rcases List.mem_cons.1 h with h | h
    · exact mem_of_decode h.symm
    · exact List.mem_cons_of_mem _ ((decode_suffix d stream).subset (ih h))

/-- Bytes that are all delivered make up no item that is a failure. -/
theorem notMem_items (e : IoFailure) (bytes : List UInt8) :
    .error (.io e) ∉ items (bytes.map .ok) := by
  intro h
  obtain ⟨b, -, hb⟩ := List.mem_map.1 (mem_of_mem_items h)
  cases hb

variable (e : IoFailure) (rest : List Delivery)

/-- Taking bytes stops at a failure, or takes what it takes without one. -/
theorem take_append_error (n : Nat) (stream : List Delivery) :
    take n (stream ++ .error e :: rest) = (.error (.io e), rest) ∨
      ∃ taken left, left.length ≤ stream.length ∧
        take n (stream ++ .error e :: rest) = (taken, left ++ .error e :: rest) ∧
        take n (stream ++ rest) = (taken, left ++ rest) := by
  induction n generalizing stream with
  | zero => exact .inr ⟨.ok [], stream, Nat.le_refl _, rfl, rfl⟩
  | succ n ih =>
    match stream with
    | [] => exact .inl rfl
    | .error f :: stream =>
      exact .inr ⟨.error (.io f), stream, Nat.le_succ _, rfl, rfl⟩
    | .ok b :: stream =>
      rcases ih stream with h | ⟨taken, left, hleft, h, h'⟩
      · refine .inl ?_
        rw [List.cons_append, take, h]
        rfl
      · refine .inr ⟨taken.map (b :: ·), left, Nat.le_succ_of_le hleft, ?_, ?_⟩
        · rw [List.cons_append, take, h]
        · rw [List.cons_append, take, h']

/-- A failure in the middle of a character is what decoding meets, and the rest is left. -/
theorem decode_append_error (d : Delivery) (stream : List Delivery) :
    decode d (stream ++ .error e :: rest) = (.error (.io e), rest) ∨
      ∃ item left, left.length ≤ stream.length ∧
        decode d (stream ++ .error e :: rest) = (item, left ++ .error e :: rest) ∧
        decode d (stream ++ rest) = (item, left ++ rest) := by
  rcases d with f | first
  · exact .inr ⟨.error (.io f), stream, Nat.le_refl _, rfl, rfl⟩
  rcases hfollowing : following? first with - | n
  · exact .inr ⟨_, stream, Nat.le_refl _, decode_of_not_following hfollowing _,
      decode_of_not_following hfollowing _⟩
  rw [decode_of_following hfollowing, decode_of_following hfollowing]
  rcases take_append_error e rest n stream with h | ⟨taken, left, hleft, h, h'⟩
  · rw [h]
    exact .inl rfl
  · rw [h, h']
    exact .inr ⟨_, left, hleft, rfl, rfl⟩

/-- Up to a failure a stream has the items that it has without it. -/
theorem exists_items_append_error (stream : List Delivery) :
    ∃ before after, items (stream ++ .error e :: rest) = before ++ .error (.io e) :: items rest ∧
      items (stream ++ rest) = before ++ after := by
  obtain ⟨length, hlength⟩ : ∃ n, stream.length ≤ n := ⟨_, Nat.le_refl _⟩
  induction length generalizing stream with
  | zero =>
    obtain rfl := List.eq_nil_of_length_eq_zero (Nat.le_zero.1 hlength)
    exact ⟨[], items rest, by rw [List.nil_append, items, decode]; rfl, rfl⟩
  | succ n ih =>
    rcases stream with - | ⟨d, stream⟩
    · exact ⟨[], items rest, by rw [List.nil_append, items, decode]; rfl, rfl⟩
    rcases decode_append_error e rest d stream with h | ⟨item, left, hleft, h, h'⟩
    · exact ⟨[], _, by rw [List.cons_append, items, h]; rfl, rfl⟩
    · obtain ⟨before, after, hitems, hitems'⟩ :=
        ih left (Nat.le_trans hleft (Nat.le_of_succ_le_succ hlength))
      refine ⟨item :: before, after, ?_, ?_⟩
      · rw [List.cons_append, items, h, hitems]
        rfl
      · rw [List.cons_append, items, h', hitems']
        rfl

end FormTree.Utf8
