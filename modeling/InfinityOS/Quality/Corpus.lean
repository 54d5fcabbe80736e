import InfinityOS.Core.Types
import InfinityOS.Text.Base64

/-!
# The corpus of the fuzz targets

A seed is kept as text in base 64. The encoder writes three bytes at a time with padding; the
decoder drops the padding and reads four characters at a time through a table, in which the
padding character stands for zero.
-/

namespace InfinityOS

namespace Quality

open Text Base64

inductive FuzzError where
  | invalidCorpusData (name message : String)
  deriving DecidableEq

/-- The `{:?}` of the character of a byte. -/
def debugByte (byte : UInt8) : String :=
  let escaped : List Char :=
    if byte = 0 then ['\\', '0']
    else if byte = 9 then ['\\', 't']
    else if byte = 10 then ['\\', 'n']
    else if byte = 13 then ['\\', 'r']
    else if byte = 39 ∨ byte = 92 then ['\\', byte.toChar]
    else if byte < 0x20 ∨ 0x7F ≤ byte ∧ byte ≤ 0xA0 ∨ byte = 0xAD then
      ['\\', 'u', '\x7b'] ++ Nat.toDigits 16 byte.toNat ++ ['\x7d']
    else [byte.toChar]
  String.ofList ('\'' :: (escaped ++ ['\'']))

namespace Base64Standard

def alphabet : List UInt8 :=
  "ABCDEFGHIJKLMNOPQRSTUVWXYZabcdefghijklmnopqrstuvwxyz0123456789+/".toList.map Char.toUInt8

/-- `ALPHABET[i as usize] as char`, where `i` is below 64. -/
def alphabetAt (i : UInt8) : Char :=
  (alphabet[i.toNat]?.getD 0).toChar

/-- The body of the loop of `encode`. -/
def encodeChunk (chunk : List UInt8) : List Char :=
  let b0 := chunk[0]?.getD 0
  let b1 := if chunk.length > 1 then chunk[1]?.getD 0 else 0
  let b2 := if chunk.length > 2 then chunk[2]?.getD 0 else 0
  [alphabetAt (b0 >>> 2),
    alphabetAt ((b0 &&& 3) <<< 4 ||| b1 >>> 4),
    if chunk.length > 1 then alphabetAt ((b1 &&& 0xF) <<< 2 ||| b2 >>> 6) else '=',
    if chunk.length > 2 then alphabetAt (b2 &&& 0x3F) else '=']

def encode (input : List UInt8) : String :=
  String.ofList ((chunks 3 input).flatMap encodeChunk)

/-- The lookup table, in which 0xFF marks what is invalid. -/
def table : List UInt8 :=
  (alphabet.zipIdx.foldl (fun t entry => t.set entry.1.toNat (.ofNat entry.2))
    (List.replicate 256 0xFF)).set '='.toNat 0

/-- `table[byte as usize]`. -/
def tableAt (byte : UInt8) : UInt8 :=
  table[byte.toNat]?.getD 0xFF

def invalidCharacter (byte : UInt8) : String :=
  "invalid base64 character: " ++ debugByte byte

/-- The body of the loop of `decode`. -/
def decodeChunk (decoded chunk : List UInt8) : Except String (List UInt8) :=
  match chunk.find? fun byte => tableAt byte = 0xFF with
  | some byte => .error (invalidCharacter byte)
  | none =>
      let c0 := tableAt (chunk[0]?.getD 0)
      let c1 := if chunk.length > 1 then tableAt (chunk[1]?.getD 0) else 0
      let c2 := if chunk.length > 2 then tableAt (chunk[2]?.getD 0) else 0
      let c3 := if chunk.length > 3 then tableAt (chunk[3]?.getD 0) else 0
      .ok (decoded ++ [c0 <<< 2 ||| c1 >>> 4] ++
        (if chunk.length > 2 then [c1 <<< 4 ||| c2 >>> 2] else []) ++
        (if chunk.length > 3 then [c2 <<< 6 ||| c3] else []))

/-- `input.trim_end_matches('=')`. -/
def body (input : String) : List Char :=
  input.toList.rdropWhile (· = '=')

def decode (input : String) : Except String (List UInt8) :=
  (chunks 4 ((body input).flatMap String.utf8EncodeChar)).foldlM decodeChunk []

end Base64Standard

structure CorpusEntry where
  name : String
  dataB64 : String
  description : Option String
  deriving DecidableEq

namespace CorpusEntry

def fromBytes (name : String) (bytes : List UInt8) : CorpusEntry where
  name := name
  dataB64 := Base64Standard.encode bytes
  description := none

def bytes (entry : CorpusEntry) : Except FuzzError (List UInt8) :=
  (Base64Standard.decode entry.dataB64).mapError (.invalidCorpusData entry.name)

end CorpusEntry

namespace Base64Standard

/-! ## The table and the alphabet -/

/-- The character of a sextet. -/
def symbol (i : Fin 64) : Char :=
  alphabetAt (.ofNat i.val)

def value (byte : UInt8) : Fin 64 :=
  sextet (tableAt byte).toNat

/-- A character of the alphabet or the padding. -/
def Readable (c : Char) : Prop :=
  c = '=' ∨ ∃ i, c = symbol i

theorem symbol_ne_padding (i : Fin 64) : symbol i ≠ '=' := by
  revert i
  decide +kernel

theorem value_symbol (i : Fin 64) : value (symbol i).toUInt8 = i := by
  revert i
  decide +kernel

theorem utf8_symbol (i : Fin 64) : String.utf8EncodeChar (symbol i) = [(symbol i).toUInt8] := by
  revert i
  decide +kernel

theorem tableAt_symbol (i : Fin 64) : tableAt (symbol i).toUInt8 = .ofNat i.val := by
  revert i
  decide +kernel

theorem tableAt_or (byte : UInt8) :
    tableAt byte = 0xFF ∨ byte.toNat < 128 ∧ (tableAt byte).toNat < 64 ∧
      (byte.toChar = '=' ∨ symbol (value byte) = byte.toChar) := by
  have hall : ∀ n : Fin 256, tableAt (.ofNat n.val) = 0xFF ∨ n.val < 128 ∧
      (tableAt (.ofNat n.val)).toNat < 64 ∧ ((UInt8.ofNat n.val).toChar = '=' ∨
        symbol (value (.ofNat n.val)) = (UInt8.ofNat n.val).toChar) := by
    decide +kernel
  have hbyte := hall ⟨byte.toNat, byte.toNat_lt⟩
  rwa [UInt8.ofNat_toNat] at hbyte

theorem alphabetAt_eq_symbol {i : UInt8} {n : ℕ} (hn : n < 64) (hi : i.toNat = n) :
    alphabetAt i = symbol (sextet n) := by
  have hval : UInt8.ofNat (sextet n).val = i := by
    rw [val_sextet, Nat.mod_eq_of_lt hn, ← hi, UInt8.ofNat_toNat]
  rw [symbol, hval]

/-! ## The encoder -/

section Symbols

variable (a b c : UInt8)

theorem first_symbol : alphabetAt (a >>> 2) = symbol (sextet (a.toNat / 4)) := by
  have ha := a.toNat_lt
  apply alphabetAt_eq_symbol (by omega)
  rw [UInt8.toNat_shiftRight, Nat.shiftRight_eq_div_pow]
  rfl

theorem second_symbol : alphabetAt ((a &&& 3) <<< 4 ||| b >>> 4) =
    symbol (sextet (a.toNat % 4 * 16 + b.toNat / 16)) := by
  have hb := b.toNat_lt
  have hlow : (a &&& 3).toNat = a.toNat % 4 := by
    rw [UInt8.toNat_and]
    exact Nat.and_two_pow_sub_one_eq_mod _ 2
  have hhigh : (b >>> 4).toNat = b.toNat / 16 := by
    rw [UInt8.toNat_shiftRight, Nat.shiftRight_eq_div_pow]
    rfl
  apply alphabetAt_eq_symbol (by omega)
  rw [toNat_shiftLeft_or (by decide) (by rw [hhigh]; change _ < 16; omega), hlow, hhigh]
  change a.toNat % 4 * 16 % 256 + _ = _
  omega

theorem third_symbol : alphabetAt ((b &&& 0xF) <<< 2 ||| c >>> 6) =
    symbol (sextet (b.toNat % 16 * 4 + c.toNat / 64)) := by
  have hc := c.toNat_lt
  have hlow : (b &&& 0xF).toNat = b.toNat % 16 := by
    rw [UInt8.toNat_and]
    exact Nat.and_two_pow_sub_one_eq_mod _ 4
  have hhigh : (c >>> 6).toNat = c.toNat / 64 := by
    rw [UInt8.toNat_shiftRight, Nat.shiftRight_eq_div_pow]
    rfl
  apply alphabetAt_eq_symbol (by omega)
  rw [toNat_shiftLeft_or (by decide) (by rw [hhigh]; change _ < 4; omega), hlow, hhigh]
  change b.toNat % 16 * 4 % 256 + _ = _
  omega

theorem fourth_symbol : alphabetAt (c &&& 0x3F) = symbol (sextet (c.toNat % 64)) := by
  apply alphabetAt_eq_symbol (by omega)
  rw [UInt8.toNat_and]
  exact Nat.and_two_pow_sub_one_eq_mod _ 6

end Symbols

theorem encodeChunk_eq {chunk : List UInt8} (hne : chunk ≠ []) (hlength : chunk.length ≤ 3) :
    encodeChunk chunk =
      (sextets chunk).map symbol ++ List.replicate (padding chunk.length) '=' := by
  match chunk, hne, hlength with
  | [a], _, _ =>
      have htext : encodeChunk [a] =
          [alphabetAt (a >>> 2), alphabetAt ((a &&& 3) <<< 4 ||| (0 : UInt8) >>> 4), '=', '='] :=
        rfl
      rw [htext, first_symbol, second_symbol]
      rfl
  | [a, b], _, _ =>
      have htext : encodeChunk [a, b] =
          [alphabetAt (a >>> 2), alphabetAt ((a &&& 3) <<< 4 ||| b >>> 4),
            alphabetAt ((b &&& 0xF) <<< 2 ||| (0 : UInt8) >>> 6), '='] := rfl
      rw [htext, first_symbol, second_symbol, third_symbol]
      rfl
  | [a, b, c], _, _ =>
      have htext : encodeChunk [a, b, c] =
          [alphabetAt (a >>> 2), alphabetAt ((a &&& 3) <<< 4 ||| b >>> 4),
            alphabetAt ((b &&& 0xF) <<< 2 ||| c >>> 6), alphabetAt (c &&& 0x3F)] := rfl
      rw [htext, first_symbol, second_symbol, third_symbol, fourth_symbol]
      simp [sextets, padding]

theorem toList_encode (b : List UInt8) :
    (encode b).toList = (sextets b).map symbol ++ List.replicate (padding b.length) '=' := by
  rw [encode, String.toList_ofList]
  induction b using chunk_induction (n := 3) (by omega) with
  | nil => rfl
  | chunk b hb ih =>
      have hpos := List.length_pos_iff.mpr hb
      rw [chunks_of_ne_nil (by omega) hb, List.flatMap_cons, ih, encodeChunk_eq
        (by simpa using hb) (by rw [List.length_take]; omega), ← sextets_take_append_drop b,
        List.map_append]
      by_cases hle : 3 ≤ b.length
      · have hfull : padding (b.take 3).length = 0 := by
          rw [List.length_take, Nat.min_eq_left hle]
          rfl
        have hrest : padding (b.drop 3).length = padding b.length := by
          rw [← padding_add_three, List.length_drop, Nat.sub_add_cancel hle]
        rw [hfull, hrest, List.replicate_zero, List.append_nil, List.append_assoc]
      · have hdrop : b.drop 3 = [] := List.drop_eq_nil_of_le (by omega)
        have htake : b.take 3 = b := List.take_of_length_le (by omega)
        rw [hdrop, htake]
        simp [sextets, padding]

/-! ## The decoder -/

section Bytes

variable {x y : UInt8}

theorem first_byte (hy : y.toNat < 64) :
    x <<< 2 ||| y >>> 4 = .ofNat (x.toNat * 4 + y.toNat / 16) := by
  have hhigh : (y >>> 4).toNat = y.toNat / 16 := by
    rw [UInt8.toNat_shiftRight, Nat.shiftRight_eq_div_pow]
    rfl
  rw [← UInt8.toNat_inj,
    toNat_shiftLeft_or (by decide) (by rw [hhigh]; change _ < 4; omega), hhigh,
    UInt8.toNat_ofNat']
  change x.toNat * 4 % 256 + _ = _
  omega

theorem second_byte (hy : y.toNat < 64) :
    x <<< 4 ||| y >>> 2 = .ofNat (x.toNat % 16 * 16 + y.toNat / 4) := by
  have hhigh : (y >>> 2).toNat = y.toNat / 4 := by
    rw [UInt8.toNat_shiftRight, Nat.shiftRight_eq_div_pow]
    rfl
  rw [← UInt8.toNat_inj,
    toNat_shiftLeft_or (by decide) (by rw [hhigh]; change _ < 16; omega), hhigh,
    UInt8.toNat_ofNat']
  change x.toNat * 16 % 256 + _ = _
  omega

theorem third_byte (hy : y.toNat < 64) :
    x <<< 6 ||| y = .ofNat (x.toNat % 4 * 64 + y.toNat) := by
  rw [← UInt8.toNat_inj, toNat_shiftLeft_or (by decide) (by change _ < 64; omega),
    UInt8.toNat_ofNat']
  change x.toNat * 64 % 256 + _ = _
  omega

end Bytes

theorem decodeChunk_ok {decoded chunk : List UInt8} (hne : chunk ≠ []) (hlength : chunk.length ≤ 4)
    (hknown : ∀ byte ∈ chunk, tableAt byte ≠ 0xFF) :
    decodeChunk decoded chunk = .ok (decoded ++ octets (chunk.map value)) := by
  have hnone : (chunk.find? fun byte => tableAt byte = 0xFF) = none := by
    rw [List.find?_eq_none]
    intro byte hbyte
    simpa using hknown byte hbyte
  have hlt : ∀ byte ∈ chunk, (tableAt byte).toNat < 64 := by
    intro byte hbyte
    rcases tableAt_or byte with hinvalid | ⟨-, hlt, -⟩
    · exact absurd hinvalid (hknown byte hbyte)
    · exact hlt
  have hvalue : ∀ byte ∈ chunk, (value byte).val = (tableAt byte).toNat := by
    intro byte hbyte
    exact Nat.mod_eq_of_lt (hlt byte hbyte)
  rw [decodeChunk, hnone]
  match chunk, hne, hlength, hlt, hvalue with
  | [p], _, _, hlt, hvalue =>
      have hp := first_byte (x := tableAt p) (y := 0) (by decide)
      simp [octets, hvalue] at hp ⊢
      exact hp
  | [p, q], _, _, hlt, hvalue =>
      simp [octets, hvalue, first_byte (hlt q (by simp))]
  | [p, q, r], _, _, hlt, hvalue =>
      simp [octets, hvalue, first_byte (hlt q (by simp)),
        second_byte (hlt r (by simp))]
  | [p, q, r, s], _, _, hlt, hvalue =>
      simp [octets, hvalue, first_byte (hlt q (by simp)),
        second_byte (hlt r (by simp)), third_byte (hlt s (by simp))]

theorem decodeChunks_eq (bytes decoded : List UInt8) :
    (chunks 4 bytes).foldlM decodeChunk decoded =
      match bytes.find? fun byte => tableAt byte = 0xFF with
      | some byte => .error (invalidCharacter byte)
      | none => .ok (decoded ++ octets (bytes.map value)) := by
  induction bytes using chunk_induction (n := 4) (by omega) generalizing decoded with
  | nil =>
      rw [chunks_nil (by omega)]
      simp [octets, pure, Except.pure]
  | chunk bytes hbytes ih =>
      have hfind : (bytes.find? fun byte => tableAt byte = 0xFF) =
          ((bytes.take 4).find? fun byte => tableAt byte = 0xFF).or
            ((bytes.drop 4).find? fun byte => tableAt byte = 0xFF) := by
        rw [← List.find?_append, List.take_append_drop]
      rw [chunks_of_ne_nil (by omega) hbytes, List.foldlM_cons, hfind]
      cases hfirst : (bytes.take 4).find? fun byte => tableAt byte = 0xFF with
      | some byte =>
          rw [decodeChunk, hfirst]
          rfl
      | none =>
          have hknown : ∀ byte ∈ bytes.take 4, tableAt byte ≠ 0xFF := by
            intro byte hbyte
            simpa using List.find?_eq_none.mp hfirst byte hbyte
          rw [decodeChunk_ok (by simpa using hbytes) (by rw [List.length_take]; omega) hknown,
            Option.none_or]
          change List.foldlM decodeChunk _ _ = _
          rw [ih, List.append_assoc, List.map_take, List.map_drop, octets_take_append_drop]

/-! ## Characters and bytes -/

theorem utf8_readable {c : Char} (hc : Readable c) :
    String.utf8EncodeChar c = [c.toUInt8] ∧ tableAt c.toUInt8 ≠ 0xFF := by
  rcases hc with rfl | ⟨i, rfl⟩
  · decide +kernel
  · refine ⟨utf8_symbol i, ?_⟩
    rw [tableAt_symbol i, Ne, ← UInt8.toNat_inj, UInt8.toNat_ofNat']
    change i.val % 256 ≠ 255
    omega

theorem exists_unknown {c : Char} (hc : ¬ Readable c) :
    ∃ byte ∈ String.utf8EncodeChar c, tableAt byte = 0xFF := by
  have hbyte : ∀ byte : UInt8, 128 ≤ byte.toNat → tableAt byte = 0xFF := by
    intro byte hle
    rcases tableAt_or byte with hunknown | ⟨hlt, -⟩
    · exact hunknown
    · omega
  by_cases hascii : c.toNat ≤ 127
  · refine ⟨.ofNat c.toNat, by simp [String.utf8EncodeChar, hascii], ?_⟩
    rcases tableAt_or (.ofNat c.toNat) with hunknown | ⟨-, -, hread⟩
    · exact hunknown
    · have hchar : (UInt8.ofNat c.toNat).toChar = c := by
        apply Char.ext
        rw [← UInt32.toNat_inj]
        change (UInt8.ofNat c.toNat).toUInt32.toNat = c.toNat
        rw [UInt8.toNat_toUInt32, UInt8.toNat_ofNat']
        omega
      rw [hchar] at hread
      exact absurd (hread.imp_right fun h => ⟨_, h.symm⟩) hc
  · have hlead : ∃ byte ∈ String.utf8EncodeChar c, 128 ≤ byte.toNat := by
      simp only [String.utf8EncodeChar, Char.toNat_val, if_neg hascii]
      by_cases htwo : c.toNat ≤ 0x7FF
      · rw [if_pos htwo]
        exact ⟨_, List.mem_cons_self, by rw [UInt8.toNat_ofNat']; omega⟩
      · rw [if_neg htwo]
        by_cases hthree : c.toNat ≤ 0xFFFF
        · rw [if_pos hthree]
          exact ⟨_, List.mem_cons_self, by rw [UInt8.toNat_ofNat']; omega⟩
        · rw [if_neg hthree]
          exact ⟨_, List.mem_cons_self, by rw [UInt8.toNat_ofNat']; omega⟩
    obtain ⟨byte, hmem, hle⟩ := hlead
    exact ⟨byte, hmem, hbyte byte hle⟩

/-- The sextets of the characters before the padding. -/
def values (input : String) : List (Fin 64) :=
  (body input).map fun c => value c.toUInt8

theorem utf8_of_readable {l : List Char} (hl : ∀ c ∈ l, Readable c) :
    l.flatMap String.utf8EncodeChar = l.map Char.toUInt8 := by
  induction l with
  | nil => rfl
  | cons c l ih =>
      rw [List.flatMap_cons, (utf8_readable (hl c List.mem_cons_self)).1,
        ih fun d hd => hl d (List.mem_cons_of_mem c hd)]
      rfl

theorem readable_iff (input : String) :
    (∀ c ∈ input.toList, Readable c) ↔ ∀ c ∈ body input, Readable c := by
  constructor
  · intro h c hc
    exact h c ((List.rdropWhile_prefix _ _).subset hc)
  · intro h c hc
    rw [← List.rdropWhile_append_rtakeWhile (p := fun c => decide (c = '=')) (l := input.toList),
      List.mem_append] at hc
    cases hc with
    | inl hbody => exact h c hbody
    | inr htail => exact .inl (by simpa using List.mem_rtakeWhile_imp htail)

theorem decode_of_readable {input : String} (h : ∀ c ∈ input.toList, Readable c) :
    decode input = .ok (octets (values input)) := by
  rw [readable_iff] at h
  have hnone : (((body input).flatMap String.utf8EncodeChar).find? fun byte =>
      tableAt byte = 0xFF) = none := by
    rw [utf8_of_readable h, List.find?_eq_none]
    intro byte hbyte
    obtain ⟨c, hc, rfl⟩ := List.mem_map.mp hbyte
    simpa using (utf8_readable (h c hc)).2
  rw [decode, decodeChunks_eq, hnone, utf8_of_readable h, List.map_map]
  rfl

theorem decode_of_unreadable {input : String} {c : Char} (hc : c ∈ input.toList)
    (h : ¬ Readable c) : ∃ byte, decode input = .error (invalidCharacter byte) := by
  have hbody : ∃ c ∈ body input, ¬ Readable c := by
    by_contra hall
    push Not at hall
    exact h ((readable_iff input).mpr hall c hc)
  obtain ⟨d, hd, hunreadable⟩ := hbody
  obtain ⟨byte, hbyte, hunknown⟩ := exists_unknown hunreadable
  have hsome : (((body input).flatMap String.utf8EncodeChar).find? fun byte =>
      tableAt byte = 0xFF).isSome := by
    rw [List.find?_isSome]
    exact ⟨byte, List.mem_flatMap.mpr ⟨d, hd, hbyte⟩, by simpa using hunknown⟩
  obtain ⟨first, hfirst⟩ := Option.isSome_iff_exists.mp hsome
  exact ⟨first, by rw [decode, decodeChunks_eq, hfirst]⟩

/-! ## Reading what was written -/

theorem rdropWhile_append_padding (l : List Char) (k : ℕ) :
    (l ++ List.replicate k '=').rdropWhile (· = '=') = l.rdropWhile (· = '=') := by
  induction k with
  | zero => rw [List.replicate_zero, List.append_nil]
  | succ k ih =>
      rw [List.replicate_succ', ← List.append_assoc, List.rdropWhile_concat_pos _ _ _ (by simp), ih]

theorem rdropWhile_of_notMem {l : List Char} (hl : '=' ∉ l) : l.rdropWhile (· = '=') = l := by
  rw [List.rdropWhile_eq_self_iff]
  intro hne
  have hlast : l.getLast hne ≠ '=' := fun heq => hl (heq ▸ List.getLast_mem hne)
  simpa using hlast

theorem padding_notMem_symbols (l : List (Fin 64)) : '=' ∉ l.map symbol := by
  intro hmem
  obtain ⟨i, -, hi⟩ := List.mem_map.mp hmem
  exact symbol_ne_padding i hi

theorem body_encode (b : List UInt8) : body (encode b) = (sextets b).map symbol := by
  rw [body, toList_encode, rdropWhile_append_padding]
  exact rdropWhile_of_notMem (padding_notMem_symbols _)

theorem map_value_symbol (l : List (Fin 64)) :
    (l.map symbol).map (fun c => value c.toUInt8) = l := by
  rw [List.map_map]
  conv_rhs => rw [← List.map_id l]
  apply List.map_congr_left
  intro i _
  exact value_symbol i

theorem readable_encode (b : List UInt8) : ∀ c ∈ (encode b).toList, Readable c := by
  intro c hc
  rw [toList_encode, List.mem_append] at hc
  cases hc with
  | inl hsymbol =>
      obtain ⟨i, -, rfl⟩ := List.mem_map.mp hsymbol
      exact .inr ⟨i, rfl⟩
  | inr hpadding => exact .inl (List.eq_of_mem_replicate hpadding)

theorem values_encode (b : List UInt8) : values (encode b) = sextets b := by
  rw [values, body_encode, map_value_symbol]

/-- Every byte string comes back from its text, and from a corpus entry made of it. -/
theorem decode_encode (b : List UInt8) :
    decode (encode b) = .ok b ∧ ∀ name, (CorpusEntry.fromBytes name b).bytes = .ok b := by
  have hdecode : decode (encode b) = .ok b := by
    rw [decode_of_readable (readable_encode b), values_encode, octets_sextets]
  refine ⟨hdecode, fun name => ?_⟩
  rw [CorpusEntry.bytes, CorpusEntry.fromBytes, hdecode]
  rfl

/-! ## Texts that are written -/

/-- The padding at the end (what `trim_end_matches` drops). -/
def trailing (input : String) : List Char :=
  input.toList.rtakeWhile (· = '=')

/-- What the encoder writes, with some or all of the padding missing: no padding before the end
and no more of it than the last group lacks, no dangling character and no bit left over. -/
structure Canonical (input : String) : Prop where
  inner : '=' ∉ body input
  whole : Whole (values input)
  ending : (trailing input).length ≤ (4 - (body input).length % 4) % 4

theorem toList_eq_body_append (input : String) :
    input.toList = body input ++ List.replicate (trailing input).length '=' := by
  have htrailing : trailing input = List.replicate (trailing input).length '=' := by
    apply List.eq_replicate_of_mem
    intro c hc
    simpa using List.mem_rtakeWhile_imp hc
  rw [← htrailing]
  exact List.rdropWhile_append_rtakeWhile.symm

theorem map_symbol_values {input : String} (hread : ∀ c ∈ input.toList, Readable c)
    (hinner : '=' ∉ body input) : (values input).map symbol = body input := by
  rw [values, List.map_map]
  conv_rhs => rw [← List.map_id (body input)]
  apply List.map_congr_left
  intro c hc
  rcases (readable_iff input).mp hread c hc with rfl | ⟨i, rfl⟩
  · exact absurd hc hinner
  · rw [Function.comp_apply, value_symbol]
    rfl

theorem append_padding_eq_encode_iff {input : String} (hread : ∀ c ∈ input.toList, Readable c) :
    (∃ k, input ++ String.ofList (List.replicate k '=') = encode (octets (values input))) ↔
      Canonical input := by
  have hlength : (values input).length = (body input).length := List.length_map _
  constructor
  · rintro ⟨k, hk⟩
    have hlist := congrArg String.toList hk
    rw [String.toList_append, String.toList_ofList, toList_encode, toList_eq_body_append,
      List.append_assoc, List.replicate_append_replicate] at hlist
    have hbody : body input = (sextets (octets (values input))).map symbol := by
      have hdrop := congrArg (List.rdropWhile fun c => decide (c = '=')) hlist
      rwa [rdropWhile_append_padding, rdropWhile_append_padding, body, List.rdropWhile_idempotent,
        rdropWhile_of_notMem (padding_notMem_symbols _)] at hdrop
    have hvalues : values input = sextets (octets (values input)) := by
      conv_lhs => rw [values, hbody, map_value_symbol]
    have hlen := congrArg List.length hlist
    rw [hbody, List.length_append, List.length_append, List.length_replicate,
      List.length_replicate, Nat.add_left_cancel_iff, padding_length, ← hvalues, hlength] at hlen
    refine ⟨?_, ?_, by omega⟩
    · rw [hbody]
      exact padding_notMem_symbols _
    · rw [hvalues]
      exact whole_sextets _
  · intro hcanonical
    refine ⟨(4 - (body input).length % 4) % 4 - (trailing input).length, ?_⟩
    have hending := hcanonical.ending
    apply String.toList_injective
    rw [String.toList_append, String.toList_ofList, toList_encode, padding_length,
      sextets_octets hcanonical.whole, hlength, map_symbol_values hread hcanonical.inner,
      toList_eq_body_append, List.append_assoc, List.replicate_append_replicate,
      Nat.add_sub_cancel' hending]

/-- The decoder reads the texts of the alphabet and the padding character and no other. What
it reads is what its result is written as, up to missing padding, exactly when it is
canonical. -/
theorem decode_reads (input : String) :
    ((∃ b, decode input = .ok b) ↔ ∀ c ∈ input.toList, Readable c) ∧
      ∀ b, decode input = .ok b →
        ((∃ k, input ++ String.ofList (List.replicate k '=') = encode b) ↔ Canonical input) := by
  have hread : (∃ b, decode input = .ok b) → ∀ c ∈ input.toList, Readable c := by
    rintro ⟨b, hb⟩ c hc
    by_contra hunreadable
    obtain ⟨byte, herror⟩ := decode_of_unreadable hc hunreadable
    rw [herror] at hb
    cases hb
  refine ⟨⟨hread, fun h => ⟨_, decode_of_readable h⟩⟩, ?_⟩
  intro b hb
  have hall := hread ⟨b, hb⟩
  rw [decode_of_readable hall] at hb
  cases hb
  exact append_padding_eq_encode_iff hall

/-- A dangling character, unused bits, a padding character in the middle and padding of an empty
text are all read. -/
theorem decode_lenient :
    decode "A" = .ok [0] ∧ decode "AB" = .ok [0] ∧ decode "AA=A" = .ok [0, 0, 0] ∧
      decode "====" = .ok [] ∧
      ∀ k, "AB" ++ String.ofList (List.replicate k '=') ≠ encode [0] := by
  refine ⟨by decide +kernel, by decide +kernel, by decide +kernel, by decide +kernel, ?_⟩
  intro k hk
  have hlist := congrArg (fun s => s.toList[1]?) hk
  have hleft : ("AB" ++ String.ofList (List.replicate k '=')).toList[1]? = some 'B' := by
    rw [String.toList_append]
    rfl
  have hright : (encode [0]).toList[1]? = some 'A' := by decide +kernel
  simp only [hleft, hright] at hlist
  exact absurd hlist (by decide)

end Base64Standard

end Quality

end InfinityOS
