import Mathlib

/-!
# Byte strings, big-endian words and length-prefixed framing

* `beBytes w n`: the `w` low bytes of `n`, most significant first (`to_be_bytes`).
* `utf8 s`: the UTF-8 bytes of a string; `ofUtf8?` checks and decodes them.
* `frame part`: an 8-byte length followed by the part. A concatenation of frames determines the
  list of its parts (`frames_inj`), as long as every part is shorter than `2 ^ 64` bytes.
-/

namespace Lib

/-- A Rust `Vec<u8>`. -/
abbrev Bytes := List UInt8

/-! ## Big-endian words -/

/-- The `w` low bytes of `n`, most significant first. -/
def beBytes : Nat → Nat → Bytes
  | 0, _ => []
  | w + 1, n => beBytes w (n / 256) ++ [UInt8.ofNat (n % 256)]

@[simp] theorem length_beBytes (w n : Nat) : (beBytes w n).length = w := by
  induction w generalizing n with
  | zero => rfl
  | succ w ih => simp [beBytes, ih]

/-- Big-endian words of one width are equal only if the numbers are, below the width's bound. -/
theorem beBytes_inj {w m n : Nat} (hm : m < 256 ^ w) (hn : n < 256 ^ w)
    (h : beBytes w m = beBytes w n) : m = n := by
  induction w generalizing m n with
  | zero => omega
  | succ w ih =>
    simp only [beBytes] at h
    obtain ⟨hq, hr⟩ := List.append_inj h (by simp)
    have hq' : m / 256 = n / 256 :=
      ih (Nat.div_lt_of_lt_mul (by rw [pow_succ] at hm; omega))
        (Nat.div_lt_of_lt_mul (by rw [pow_succ] at hn; omega)) hq
    have hr' : m % 256 = n % 256 := by
      have := congrArg UInt8.toNat (List.singleton_inj.mp hr)
      simpa using this
    omega

/-- The number of a big-endian word (`from_be_bytes`). -/
def ofBeBytes (bs : Bytes) : Nat := bs.foldl (fun n b => n * 256 + b.toNat) 0

theorem ofBeBytes_beBytes {w n : Nat} (hn : n < 256 ^ w) : ofBeBytes (beBytes w n) = n := by
  induction w generalizing n with
  | zero => simp only [pow_zero] at hn; simp [beBytes, ofBeBytes]; omega
  | succ w ih =>
    have hq := ih (n := n / 256) (Nat.div_lt_of_lt_mul (by rw [pow_succ] at hn; omega))
    simp only [ofBeBytes, beBytes, List.foldl_append, List.foldl_cons, List.foldl_nil] at hq ⊢
    rw [hq]
    have : (UInt8.ofNat (n % 256)).toNat = n % 256 := by simp
    rw [this]
    omega

/-! ## Strings -/

/-- The bytes of a string (`str::as_bytes`). -/
def utf8 (s : String) : Bytes := s.toByteArray.data.toList

/-- The string with these bytes, if they are valid UTF-8 (`str::from_utf8`). -/
def ofUtf8? (bs : Bytes) : Option String := String.fromUTF8? ⟨bs.toArray⟩

theorem utf8_inj {s t : String} (h : utf8 s = utf8 t) : s = t := by
  apply String.toByteArray_inj.mp
  have hd : s.toByteArray.data = t.toByteArray.data := Array.toList_inj.mp h
  cases hs : s.toByteArray
  cases ht : t.toByteArray
  rw [hs, ht] at hd
  simp_all

@[simp] theorem length_utf8 (s : String) : (utf8 s).length = s.utf8ByteSize := rfl

theorem ofUtf8?_utf8 (s : String) : ofUtf8? (utf8 s) = some s := by
  have hb : (⟨(utf8 s).toArray⟩ : ByteArray) = s.toByteArray := by simp [utf8]
  unfold ofUtf8?
  rw [hb]
  unfold String.fromUTF8?
  rw [dif_pos s.isValidUTF8]
  rfl

/-- The bytes of a string are those of its characters. -/
theorem utf8_ofList (cs : List Char) :
    utf8 (String.ofList cs) = cs.flatMap String.utf8EncodeChar := by
  simp [utf8, String.ofList, List.utf8Encode]

/-- The pieces with a comma between them. -/
def joinComma : List Bytes → Bytes
  | [] => []
  | piece :: pieces => piece ++ pieces.flatMap (0x2c :: ·)

/-- The length depends on the lengths of the pieces, in any order. -/
theorem length_joinComma_of_perm {ps qs : List Bytes}
    (h : (ps.map List.length).Perm (qs.map List.length)) :
    (joinComma ps).length = (joinComma qs).length := by
  have hlength : ∀ ps : List Bytes,
      (joinComma ps).length = (ps.map List.length).sum + (ps.map List.length).length - 1 := by
    intro ps
    cases ps with
    | nil => rfl
    | cons p ps =>
      have hrest : (ps.flatMap (0x2c :: ·)).length = (ps.map List.length).sum + ps.length := by
        induction ps with
        | nil => rfl
        | cons q ps ih =>
          simp only [List.flatMap_cons, List.length_append, List.length_cons, ih, List.map_cons,
            List.sum_cons]
          omega
      simp only [joinComma, List.length_append, hrest, List.map_cons, List.sum_cons,
        List.length_cons, List.length_map]
      omega
  rw [hlength, hlength, h.sum_eq, h.length_eq]

theorem length_le_joinComma {p : Bytes} {ps : List Bytes} (h : p ∈ ps) :
    p.length ≤ (joinComma ps).length := by
  cases ps with
  | nil => cases h
  | cons q ps =>
    rw [joinComma, List.length_append]
    rcases List.mem_cons.mp h with rfl | h
    · omega
    · have hpiece : p.length + 1 ≤ (ps.flatMap (0x2c :: ·)).length := by
        rw [List.length_flatMap]
        exact List.le_sum_of_mem (List.mem_map_of_mem h)
      omega

/-! ## Framing -/

/-- One framed part: its length as 8 big-endian bytes, then the part. -/
def frame (part : Bytes) : Bytes := beBytes 8 part.length ++ part

/-- The bytes of a list of framed parts. -/
def frames (parts : List Bytes) : Bytes := parts.flatMap frame

@[simp] theorem frames_nil : frames [] = [] := rfl

@[simp] theorem frames_cons (p : Bytes) (ps : List Bytes) :
    frames (p :: ps) = frame p ++ frames ps := rfl

@[simp] theorem frames_append (ps qs : List Bytes) :
    frames (ps ++ qs) = frames ps ++ frames qs := List.flatMap_append

/-- A framed part is recovered from the front of any byte string. -/
theorem frame_append_inj {p q x y : Bytes} (hp : p.length < 2 ^ 64) (hq : q.length < 2 ^ 64)
    (h : frame p ++ x = frame q ++ y) : p = q ∧ x = y := by
  simp only [frame, List.append_assoc] at h
  obtain ⟨hl, hr⟩ := List.append_inj h (by simp)
  have hlen : p.length = q.length := beBytes_inj (by omega) (by omega) hl
  exact List.append_inj hr hlen

theorem frame_ne_nil (p : Bytes) : frame p ≠ [] := by
  intro h
  have := congrArg List.length h
  simp [frame] at this

/-- The framed bytes of parts shorter than `2 ^ 64` determine the parts. -/
theorem frames_inj {ps qs : List Bytes} (hp : ∀ p ∈ ps, p.length < 2 ^ 64)
    (hq : ∀ q ∈ qs, q.length < 2 ^ 64) (h : frames ps = frames qs) : ps = qs := by
  induction ps generalizing qs with
  | nil =>
    cases qs with
    | nil => rfl
    | cons q qs =>
      have := (List.append_eq_nil_iff.mp h.symm).1
      exact absurd this (frame_ne_nil q)
  | cons p ps ih =>
    cases qs with
    | nil =>
      have := (List.append_eq_nil_iff.mp h).1
      exact absurd this (frame_ne_nil p)
    | cons q qs =>
      obtain ⟨rfl, ht⟩ := frame_append_inj (hp p (by simp)) (hq q (by simp)) h
      rw [ih (fun p' hp' => hp p' (by simp [hp'])) (fun q' hq' => hq q' (by simp [hq'])) ht]

end Lib
