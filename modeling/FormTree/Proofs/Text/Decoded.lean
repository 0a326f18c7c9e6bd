import FormTree.Proofs.Text.Utf8

/-!
# What bytes are decoded as

Bytes that a stream delivers without failing are split into chunks of one to four bytes, and each
chunk is one item: the character that it encodes, or the fault that it encodes none. A chunk that
encodes a character is the only one that can stand where it stands, so that the characters before
the first fault are all that the bytes begin with, and bytes without a fault are a text in UTF-8.
-/

namespace FormTree.Utf8

variable {c : Char} {first : UInt8} {bytes more : List UInt8}

/-! ### Whole sequences -/

/-- A character is accepted if its code is not too short for its bytes. -/
theorem scalar?_eq_some {least n : Nat} (h : scalar? least n = some c) :
    c.toNat = n ∧ least ≤ n := by
  by_cases hn : n.isValidChar
  · by_cases hle : least ≤ n
    · rw [scalar?, dif_pos hn, if_pos hle] at h
      rw [← Option.some.inj h]
      exact ⟨rfl, hle⟩
    · rw [scalar?, dif_pos hn, if_neg hle] at h
      cases h
  · rw [scalar?, dif_neg hn] at h
    cases h

theorem payload?_eq_some {b : UInt8} {n : Nat} (h : payload? b = some n) :
    0x80 ≤ b.toNat ∧ b.toNat ≤ 0xBF ∧ n = b.toNat - 0x80 := by
  unfold payload? at h
  split at h
  · rename_i hb
    simp only [Bool.and_eq_true, decide_eq_true_eq, UInt8.le_iff_toNat_le] at hb
    exact ⟨hb.1, hb.2, (Option.some.inj h).symm⟩
  · cases h

/-- A first byte calls for three more bytes at most, and its value says for how many. -/
theorem following?_eq_some {n : Nat} (h : following? first = some n) :
    first.toNat ≤ 0x7F ∧ n = 0 ∨ 0xC2 ≤ first.toNat ∧ first.toNat ≤ 0xDF ∧ n = 1 ∨
      0xE0 ≤ first.toNat ∧ first.toNat ≤ 0xEF ∧ n = 2 ∨
      0xF0 ≤ first.toNat ∧ first.toNat ≤ 0xF4 ∧ n = 3 := by
  simp only [following?, UInt8.le_iff_toNat_le, Bool.and_eq_true, decide_eq_true_eq] at h
  split at h
  · exact .inl ⟨‹_›, (Option.some.inj h).symm⟩
  split at h
  · exact .inr (.inl ⟨‹_ ∧ _›.1, ‹_ ∧ _›.2, (Option.some.inj h).symm⟩)
  split at h
  · exact .inr (.inr (.inl ⟨‹_ ∧ _›.1, ‹_ ∧ _›.2, (Option.some.inj h).symm⟩))
  split at h
  · exact .inr (.inr (.inr ⟨‹_ ∧ _›.1, ‹_ ∧ _›.2, (Option.some.inj h).symm⟩))
  · cases h

theorem eq_ofNat {b : UInt8} {n : Nat} (h : b.toNat = n) : b = UInt8.ofNat n := by
  rw [← h, UInt8.ofNat_toNat]

/-- What denotes a character is what encodes it. -/
theorem Denotes.eq_utf8EncodeChar (h : Denotes c bytes) : bytes = String.utf8EncodeChar c := by
  rcases bytes with - | ⟨first, bytes⟩
  · exact h.elim
  obtain ⟨hfollowing, hchar⟩ := h
  have hfirst := following?_eq_some hfollowing
  -- one case for each number of bytes behind the first one: arithmetic gives back each byte
  rcases bytes with - | ⟨b, - | ⟨b', - | ⟨b'', - | ⟨_, _⟩⟩⟩⟩
  · rw [char?] at hchar
    split at hchar
    · obtain ⟨hc, -⟩ := scalar?_eq_some hchar
      simp only [List.length_nil] at hfirst
      rw [utf8EncodeChar_eq, if_pos (by omega), eq_ofNat hc.symm]
    · cases hchar
  · obtain ⟨n, hn, hchar⟩ := Option.bind_eq_some_iff.1 hchar
    obtain ⟨hlow, hhigh, hvalue⟩ := payload?_eq_some hn
    obtain ⟨hc, hleast⟩ := scalar?_eq_some hchar
    simp only [List.length_cons, List.length_nil] at hfirst
    rw [utf8EncodeChar_eq, if_neg (by omega), if_pos (by omega)]
    simp only [List.cons.injEq, and_true]
    exact ⟨eq_ofNat (by omega), eq_ofNat (by omega)⟩
  · obtain ⟨n, hn, hchar⟩ := Option.bind_eq_some_iff.1 hchar
    obtain ⟨n', hn', hchar⟩ := Option.bind_eq_some_iff.1 hchar
    obtain ⟨hlow, hhigh, hvalue⟩ := payload?_eq_some hn
    obtain ⟨hlow', hhigh', hvalue'⟩ := payload?_eq_some hn'
    obtain ⟨hc, hleast⟩ := scalar?_eq_some hchar
    simp only [List.length_cons, List.length_nil] at hfirst
    rw [utf8EncodeChar_eq, if_neg (by omega), if_neg (by omega), if_pos (by omega)]
    simp only [List.cons.injEq, and_true]
    exact ⟨eq_ofNat (by omega), eq_ofNat (by omega), eq_ofNat (by omega)⟩
  · obtain ⟨n, hn, hchar⟩ := Option.bind_eq_some_iff.1 hchar
    obtain ⟨n', hn', hchar⟩ := Option.bind_eq_some_iff.1 hchar
    obtain ⟨n'', hn'', hchar⟩ := Option.bind_eq_some_iff.1 hchar
    obtain ⟨hlow, hhigh, hvalue⟩ := payload?_eq_some hn
    obtain ⟨hlow', hhigh', hvalue'⟩ := payload?_eq_some hn'
    obtain ⟨hlow'', hhigh'', hvalue''⟩ := payload?_eq_some hn''
    obtain ⟨hc, hleast⟩ := scalar?_eq_some hchar
    have hmax := toNat_lt c
    simp only [List.length_cons, List.length_nil] at hfirst
    rw [utf8EncodeChar_eq, if_neg (by omega), if_neg (by omega), if_neg (by omega)]
    simp only [List.cons.injEq, and_true]
    exact ⟨eq_ofNat (by omega), eq_ofNat (by omega), eq_ofNat (by omega), eq_ofNat (by omega)⟩
  · cases hchar

/-- What encodes a character is all that denotes it. -/
theorem denotes_iff : Denotes c bytes ↔ bytes = String.utf8EncodeChar c :=
  ⟨Denotes.eq_utf8EncodeChar, fun h => h ▸ denotes_utf8EncodeChar c⟩

/-! ### Chunks -/

/-- Whether bytes, decoded one item after the other, are taken in these chunks and give these
items. -/
inductive IsSplit : List UInt8 → List (List UInt8 × Item) → Prop
  | nil : IsSplit [] []
  | cons {first : UInt8} {more chunk rest : List UInt8} {item : Item}
      {parts : List (List UInt8 × Item)} (hbytes : first :: more = chunk ++ rest)
      (hdecode : decode (.ok first) (more.map .ok) = (item, rest.map .ok))
      (hrest : IsSplit rest parts) : IsSplit (first :: more) ((chunk, item) :: parts)

/-- Whether an item is what a chunk of bytes stands for: the character that it encodes, or the fault
that it encodes none. -/
def IsItemOf (chunk : List UInt8) : Item → Prop
  | .ok c => chunk = String.utf8EncodeChar c
  | .error fault => fault = .invalidUtf8 ∧ ∀ c, chunk ≠ String.utf8EncodeChar c

/-- Bytes end where more of them are asked for. -/
theorem take_of_lt {n : Nat} (h : bytes.length < n) :
    take n (bytes.map .ok) = (.error .invalidUtf8, []) := by
  induction bytes generalizing n with
  | nil =>
    rcases n with - | n
    · cases h
    · rfl
  | cons b bytes ih =>
    rcases n with - | n
    · cases h
    · rw [List.map_cons, take, ih (Nat.lt_of_succ_lt_succ h)]
      rfl

/-- A chunk whose first byte calls for other bytes than its own encodes nothing. -/
theorem ne_utf8EncodeChar (h : following? first ≠ some more.length) (c : Char) :
    first :: more ≠ String.utf8EncodeChar c :=
  fun heq => h (denotes_iff.2 heq).1

/-- The next item of bytes comes from a chunk of one to four of them. -/
theorem exists_chunk (first : UInt8) (more : List UInt8) :
    ∃ chunk rest item, first :: more = chunk ++ rest ∧
      decode (.ok first) (more.map .ok) = (item, rest.map .ok) ∧
      1 ≤ chunk.length ∧ chunk.length ≤ 4 ∧ IsItemOf chunk item := by
  -- a byte that begins nothing is a chunk by itself
  rcases hfirst : following? first with - | n
  · have hone : following? first ≠ some ([] : List UInt8).length := by simp [hfirst]
    exact ⟨[first], more, _, rfl, decode_of_not_following hfirst _, Nat.le_refl _, by simp, rfl,
      ne_utf8EncodeChar hone⟩
  have hle : n ≤ 3 := by
    have hrange := following?_eq_some hfirst
    omega
  rw [decode_of_following hfirst]
  -- too few bytes are left: all of them are the chunk
  rcases Nat.lt_or_ge more.length n with hn | hn
  · have hshort : following? first ≠ some more.length := by
      rw [hfirst]
      exact fun h => absurd (Option.some.inj h) (Nat.ne_of_gt hn)
    rw [take_of_lt hn]
    exact ⟨first :: more, [], _, (List.append_nil _).symm, rfl, by simp, by simp; omega, rfl,
      ne_utf8EncodeChar hshort⟩
  · obtain ⟨bytes, rest, rfl, rfl⟩ : ∃ bytes rest, more = bytes ++ rest ∧ n = bytes.length :=
      ⟨more.take n, more.drop n, (List.take_append_drop n more).symm,
        (List.length_take_of_le hn).symm⟩
    rw [List.map_append, take_append]
    refine ⟨first :: bytes, rest, _, rfl, rfl, by simp, Nat.succ_le_succ hle, ?_⟩
    dsimp only [Except.bind]
    rcases hchar : char? (first :: bytes) with - | c
    · refine ⟨rfl, fun c hc => ?_⟩
      rw [(denotes_iff.2 hc).2] at hchar
      cases hchar
    · exact denotes_iff.1 ⟨hfirst, hchar⟩

/-- Bytes are split into chunks of one to four bytes, one for each item. -/
theorem exists_isSplit (bytes : List UInt8) :
    ∃ parts, IsSplit bytes parts ∧ parts.map Prod.snd = items (bytes.map .ok) ∧
      ∀ part ∈ parts, 1 ≤ part.1.length ∧ part.1.length ≤ 4 ∧ IsItemOf part.1 part.2 := by
  induction hlength : bytes.length using Nat.strongRecOn generalizing bytes with
  | ind n ih =>
    subst hlength
    rcases bytes with - | ⟨first, more⟩
    · exact ⟨[], .nil, by rw [List.map_nil, List.map_nil, items], by simp⟩
    · obtain ⟨chunk, rest, item, hbytes, hdecode, hpos, hle, hitem⟩ := exists_chunk first more
      have hlt : rest.length < (first :: more).length := by
        rw [hbytes, List.length_append]
        omega
      obtain ⟨parts, hparts, hitems, hall⟩ := ih _ hlt rest rfl
      refine ⟨(chunk, item) :: parts, .cons hbytes hdecode hparts, ?_, ?_⟩
      · rw [List.map_cons, List.map_cons, items, hdecode, hitems]
      · exact List.forall_mem_cons.2 ⟨⟨hpos, hle, hitem⟩, hall⟩

/-! ### Characters -/

/-- The bytes of characters. -/
def encode (cs : List Char) : List UInt8 := cs.flatMap String.utf8EncodeChar

/-- Characters in front are decoded one by one. -/
theorem items_encode_append (cs : List Char) (rest : List Delivery) :
    items ((encode cs).map .ok ++ rest) = cs.map .ok ++ items rest := by
  have h := items_toUTF8_append (String.ofList cs) rest
  rwa [toList_toUTF8, String.toList_ofList] at h

/-- Characters among the first items come from their bytes. -/
theorem exists_of_items_eq {cs : List Char} {later : List Item}
    (h : items (bytes.map .ok) = cs.map .ok ++ later) :
    ∃ rest, bytes = encode cs ++ rest ∧ items (rest.map .ok) = later := by
  induction cs generalizing bytes with
  | nil => exact ⟨bytes, rfl, h⟩
  | cons c cs ih =>
    rcases bytes with - | ⟨first, more⟩
    · rw [List.map_nil, items] at h
      cases h
    · obtain ⟨chunk, rest, item, hbytes, hdecode, -, -, hitem⟩ := exists_chunk first more
      rw [List.map_cons, items, hdecode] at h
      obtain ⟨rfl, hits⟩ := List.cons.inj h
      obtain ⟨left, rfl, hleft⟩ := ih hits
      have hchunk : chunk = String.utf8EncodeChar c := hitem
      refine ⟨left, ?_, hleft⟩
      rw [hbytes, hchunk, ← List.append_assoc]
      rfl

/-- Whether items are at their end, or at a fault of the bytes. -/
def IsEndOrFault (its : List Item) : Prop := its = [] ∨ ∃ later, its = .error .invalidUtf8 :: later

/-- The items of bytes are characters up to the end or up to the first fault. -/
theorem exists_items_eq (bytes : List UInt8) :
    ∃ (cs : List Char) (its : List Item),
      items (bytes.map .ok) = cs.map .ok ++ its ∧ IsEndOrFault its := by
  have hio : ∀ item ∈ items (bytes.map .ok), ∀ e, item ≠ .error (.io e) := by
    rintro item hitem e rfl
    exact notMem_items e bytes hitem
  generalize items (bytes.map .ok) = its at hio
  induction its with
  | nil => exact ⟨[], [], rfl, .inl rfl⟩
  | cons item its ih =>
    obtain ⟨hitem, hits⟩ := List.forall_mem_cons.1 hio
    rcases item with (- | e) | c
    · exact ⟨[], _, rfl, .inr ⟨its, rfl⟩⟩
    · exact absurd rfl (hitem e)
    · obtain ⟨cs, later, rfl, hlater⟩ := ih hits
      exact ⟨c :: cs, later, rfl, hlater⟩

/-- The characters up to the end or up to a fault are all that the bytes begin with. -/
theorem prefix_of_encode_prefix {cs ds : List Char} {its : List Item}
    (h : items (bytes.map .ok) = cs.map .ok ++ its) (hend : IsEndOrFault its)
    (hds : encode ds <+: bytes) : ds <+: cs := by
  obtain ⟨rest, rfl⟩ := hds
  rw [List.map_append, items_encode_append] at h
  induction ds generalizing cs with
  | nil => exact List.nil_prefix
  | cons d ds ih =>
    rcases cs with - | ⟨c, cs⟩
    · obtain rfl | ⟨later, rfl⟩ := hend <;> cases h
    · obtain ⟨hitem, hits⟩ := List.cons.inj h
      exact List.cons_prefix_cons.2 ⟨Except.ok.inj hitem, ih hits⟩

/-! ### Valid bytes -/

/-- Bytes are valid if and only if they encode characters. -/
theorem isValidUTF8_iff : bytes.toByteArray.IsValidUTF8 ↔ ∃ cs, bytes = encode cs := by
  constructor
  · rintro ⟨cs, hcs⟩
    exact ⟨cs, List.toByteArray_inj.1 hcs⟩
  · rintro ⟨cs, rfl⟩
    exact ⟨cs, rfl⟩

/-- The text of valid bytes has the characters that they encode. -/
theorem toList_fromUTF8_encode (cs : List Char) (h : (encode cs).toByteArray.IsValidUTF8) :
    (String.fromUTF8 (encode cs).toByteArray h).toList = cs := by
  have htext : String.fromUTF8 (encode cs).toByteArray h = String.ofList cs :=
    String.toByteArray_inj.1 (String.toByteArray_ofList).symm
  rw [htext, String.toList_ofList]

/-- What encodes characters is decoded to them. -/
theorem items_encode (cs : List Char) : items ((encode cs).map .ok) = cs.map .ok := by
  have h := items_encode_append cs []
  rwa [List.append_nil, items, List.append_nil] at h

/-- Bytes that are decoded without a fault are valid. -/
theorem isValidUTF8_of_items {cs : List Char} (h : items (bytes.map .ok) = cs.map .ok) :
    bytes.toByteArray.IsValidUTF8 := by
  rw [← List.append_nil (cs.map _)] at h
  obtain ⟨rest, rfl, hrest⟩ := exists_of_items_eq h
  obtain rfl : rest = [] := by
    rcases rest with - | ⟨b, rest⟩
    · rfl
    · rw [List.map_cons, items] at hrest
      cases hrest
  exact isValidUTF8_iff.2 ⟨cs, List.append_nil _⟩

/-- **Decoding is exact.** The items of bytes are all characters if and only if the bytes are valid,
and then they are those of the text. Otherwise those in front of the first fault are the characters
of the longest beginning of the bytes that is valid. Each item, faults included, takes a chunk of
one to four bytes, and is the character that the chunk encodes if it encodes one. -/
theorem items_exact (bytes : List UInt8) :
    ((∀ item ∈ items (bytes.map .ok), ∃ c, item = .ok c) ↔ bytes.toByteArray.IsValidUTF8) ∧
    (∀ h : bytes.toByteArray.IsValidUTF8,
      items (bytes.map .ok) = (String.fromUTF8 bytes.toByteArray h).toList.map .ok) ∧
    (¬ bytes.toByteArray.IsValidUTF8 → ∃ (cs : List Char) (later : List Item),
      items (bytes.map .ok) = cs.map .ok ++ .error .invalidUtf8 :: later ∧
      encode cs <+: bytes ∧ ∀ ds, encode ds <+: bytes → ds <+: cs) ∧
    ∃ parts, IsSplit bytes parts ∧ parts.map Prod.snd = items (bytes.map .ok) ∧
      ∀ part ∈ parts, 1 ≤ part.1.length ∧ part.1.length ≤ 4 ∧ IsItemOf part.1 part.2 := by
  have hvalid (h : bytes.toByteArray.IsValidUTF8) :
      items (bytes.map .ok) = (String.fromUTF8 bytes.toByteArray h).toList.map .ok := by
    obtain ⟨cs, rfl⟩ := isValidUTF8_iff.1 h
    rw [toList_fromUTF8_encode, items_encode]
  obtain ⟨cs, its, hitems, hend⟩ := exists_items_eq bytes
  obtain ⟨rest, hbytes, -⟩ := exists_of_items_eq hitems
  refine ⟨⟨fun h => ?_, fun h => ?_⟩, hvalid, fun h => ?_, exists_isSplit bytes⟩
  · obtain rfl | ⟨later, rfl⟩ := hend
    · rw [List.append_nil] at hitems
      exact isValidUTF8_of_items hitems
    · obtain ⟨c, hc⟩ := h (.error .invalidUtf8) (by simp [hitems])
      cases hc
  · rw [hvalid h]
    simp
  · obtain rfl | ⟨later, rfl⟩ := hend
    · rw [List.append_nil] at hitems
      exact absurd (isValidUTF8_of_items hitems) h
    · exact ⟨cs, later, hitems, ⟨rest, hbytes.symm⟩,
        fun ds => prefix_of_encode_prefix hitems (.inr ⟨later, rfl⟩)⟩

end FormTree.Utf8
