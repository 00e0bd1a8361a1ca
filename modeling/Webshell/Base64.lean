import Mathlib.Data.List.Basic

/-!
# Base64

The standard alphabet with padding, and the decoder of a browser, which also
takes texts without padding and skips white space.
-/

namespace Base64

def alphabet : List Char := "ABCDEFGHIJKLMNOPQRSTUVWXYZabcdefghijklmnopqrstuvwxyz0123456789+/".toList

def digit (n : Nat) : Char := alphabet.getD n '='

def value (c : Char) : Option Nat := alphabet.findIdx? (· = c)

/-! ## Writing -/

/-- The bits of the bytes, six at a time; the last ones are filled up with zeros. -/
def sextets : List UInt8 → List Nat
  | a :: b :: c :: rest =>
    a.toNat / 4 :: (a.toNat % 4 * 16 + b.toNat / 16) :: (b.toNat % 16 * 4 + c.toNat / 64) :: c.toNat % 64 :: sextets rest
  | [a, b] => [a.toNat / 4, a.toNat % 4 * 16 + b.toNat / 16, b.toNat % 16 * 4]
  | [a] => [a.toNat / 4, a.toNat % 4 * 16]
  | [] => []

def padding (length : Nat) : List Char := List.replicate ((3 - length % 3) % 3) '='

/-- `StdEncoding.EncodeToString`. -/
def encode (data : List UInt8) : List Char := (sextets data).map digit ++ padding data.length

/-! ## Reading -/

/-- The bytes of the bits; what is left of them at the end is dropped. -/
def octets : List Nat → Option (List UInt8)
  | a :: b :: c :: d :: rest =>
    (octets rest).map fun bytes =>
      UInt8.ofNat (a * 4 + b / 16) :: UInt8.ofNat (b % 16 * 16 + c / 4) :: UInt8.ofNat (c % 4 * 64 + d) :: bytes
  | [a, b, c] => some [UInt8.ofNat (a * 4 + b / 16), UInt8.ofNat (b % 16 * 16 + c / 4)]
  | [a, b] => some [UInt8.ofNat (a * 4 + b / 16)]
  | [_] => none
  | [] => some []

def isSpace (c : Char) : Bool := c = ' ' || c = '\t' || c = '\n' || c = '\x0c' || c = '\r'

/-- A text whose length is a multiple of four may end in one or two `=`. -/
def unpad (s : List Char) : List Char :=
  if s.length % 4 = 0 then
    match s.reverse with
    | '=' :: '=' :: front => front.reverse
    | '=' :: front => front.reverse
    | _ => s
  else s

/-- `atob`, with the characters of its result as bytes. -/
def atob (s : List Char) : Option (List UInt8) :=
  match (unpad (s.filter fun c => !isSpace c)).mapM value with
  | some numbers => octets numbers
  | none => none

/-! ## What is written is read back -/

theorem value_digit : ∀ n, n < 64 → value (digit n) = some n := by decide +kernel

theorem digit_char : ∀ n, n < 64 → isSpace (digit n) = false ∧ digit n ≠ '=' := by decide +kernel

theorem sextets_lt : ∀ (data : List UInt8), ∀ n ∈ sextets data, n < 64
  | a :: b :: c :: rest, n, h => by
    have ha := a.toNat_lt
    have hb := b.toNat_lt
    have hc := c.toNat_lt
    simp only [sextets, List.mem_cons] at h
    rcases h with rfl | rfl | rfl | rfl | h
    · omega
    · omega
    · omega
    · omega
    · exact sextets_lt rest n h
  | [a, b], n, h => by
    have ha := a.toNat_lt
    have hb := b.toNat_lt
    simp only [sextets, List.mem_cons, List.not_mem_nil, or_false] at h
    omega
  | [a], n, h => by
    have ha := a.toNat_lt
    simp only [sextets, List.mem_cons, List.not_mem_nil, or_false] at h
    omega
  | [], n, h => by cases h

theorem sextets_length : ∀ (data : List UInt8),
    (sextets data).length + (padding data.length).length = 4 * ((data.length + 2) / 3)
  | a :: b :: c :: rest => by
    have ih := sextets_length rest
    simp only [padding, List.length_replicate] at ih ⊢
    simp only [sextets, List.length_cons]
    omega
  | [_, _] => by simp [sextets, padding]
  | [_] => by simp [sextets, padding]
  | [] => rfl

theorem encode_length (data : List UInt8) : (encode data).length = 4 * ((data.length + 2) / 3) := by
  unfold encode
  rw [List.length_append, List.length_map, sextets_length]

theorem encode_chars (data : List UInt8) : ∀ c ∈ encode data, c ∈ alphabet ∨ c = '=' := by
  have hdigit : ∀ n, n < 64 → digit n ∈ alphabet := by decide +kernel
  intro c h
  rcases List.mem_append.mp h with h | h
  · obtain ⟨n, hn, rfl⟩ := List.mem_map.mp h
    exact .inl (hdigit n (sextets_lt data n hn))
  · exact .inr (List.eq_of_mem_replicate h)

theorem octets_sextets : ∀ (data : List UInt8), octets (sextets data) = some data
  | a :: b :: c :: rest => by
    have ha := a.toNat_lt
    have hb := b.toNat_lt
    have hc := c.toNat_lt
    rw [sextets, octets, octets_sextets rest, Option.map_some]
    congr 2
    · rw [show a.toNat / 4 * 4 + (a.toNat % 4 * 16 + b.toNat / 16) / 16 = a.toNat by omega, UInt8.ofNat_toNat]
    · congr 1
      · rw [show (a.toNat % 4 * 16 + b.toNat / 16) % 16 * 16 + (b.toNat % 16 * 4 + c.toNat / 64) / 4 = b.toNat by omega,
          UInt8.ofNat_toNat]
      · rw [show (b.toNat % 16 * 4 + c.toNat / 64) % 4 * 64 + c.toNat % 64 = c.toNat by omega, UInt8.ofNat_toNat]
  | [a, b] => by
    have ha := a.toNat_lt
    have hb := b.toNat_lt
    rw [sextets, octets]
    congr 2
    · rw [show a.toNat / 4 * 4 + (a.toNat % 4 * 16 + b.toNat / 16) / 16 = a.toNat by omega, UInt8.ofNat_toNat]
    · rw [show (a.toNat % 4 * 16 + b.toNat / 16) % 16 * 16 + b.toNat % 16 * 4 / 4 = b.toNat by omega, UInt8.ofNat_toNat]
  | [a] => by
    have ha := a.toNat_lt
    rw [sextets, octets]
    congr 2
    rw [show a.toNat / 4 * 4 + a.toNat % 4 * 16 / 16 = a.toNat by omega, UInt8.ofNat_toNat]
  | [] => rfl

theorem unpad_padded {s : List Char} {k : Nat} (hs : ∀ c ∈ s, c ≠ '=') (hk : k ≤ 2) (hl : (s.length + k) % 4 = 0) :
    unpad (s ++ List.replicate k '=') = s := by
  have hhead : ∀ front, s.reverse = '=' :: front → False := by
    intro front hf
    have hm : '=' ∈ s.reverse := by
      rw [hf]
      exact List.mem_cons_self ..
    exact hs '=' (List.mem_reverse.mp hm) rfl
  unfold unpad
  rw [if_pos (by simpa using hl), List.reverse_append, List.reverse_replicate]
  match k, hk with
  | 0, _ =>
    rw [List.replicate_zero, List.nil_append, List.append_nil]
    split
    · rename_i front hf; exact (hhead _ hf).elim
    · rename_i front hf; exact (hhead _ hf).elim
    · rfl
  | 1, _ =>
    simp only [List.replicate_one, List.cons_append, List.nil_append]
    rw [List.reverse_reverse]
  | 2, _ =>
    simp only [List.replicate_succ, List.replicate_zero, List.cons_append, List.nil_append, List.reverse_reverse]

theorem atob_encode (data : List UInt8) : atob (encode data) = some data := by
  have hmap : ∀ c ∈ (sextets data).map digit, isSpace c = false ∧ c ≠ '=' := by
    intro c hc
    obtain ⟨n, hn, rfl⟩ := List.mem_map.mp hc
    exact digit_char n (sextets_lt data n hn)
  have hfilter : (encode data).filter (fun c => !isSpace c) = encode data := by
    apply List.filter_eq_self.mpr
    intro c hc
    rcases List.mem_append.mp hc with hc | hc
    · rw [(hmap c hc).1]; rfl
    · rw [List.eq_of_mem_replicate hc]; rfl
  have hunpad : unpad (encode data) = (sextets data).map digit := by
    apply unpad_padded fun c hc => (hmap c hc).2
    · omega
    · have hl := sextets_length data
      simp only [padding, List.length_replicate] at hl
      rw [List.length_map, hl]
      omega
  have hvalues : ∀ numbers : List Nat, (∀ n ∈ numbers, n < 64) → (numbers.map digit).mapM value = some numbers := by
    intro numbers
    induction numbers with
    | nil => intro _; rfl
    | cons n numbers ih =>
      intro h
      rw [List.map_cons, List.mapM_cons, value_digit n (h n (List.mem_cons_self ..)),
        ih fun m hm => h m (List.mem_cons_of_mem _ hm)]
      rfl
  unfold atob
  rw [hfilter, hunpad, hvalues _ (sextets_lt data)]
  exact octets_sextets data

end Base64
