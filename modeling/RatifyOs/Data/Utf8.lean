import Mathlib.Data.List.Basic
import RatifyOs.Data.Buffer

/-! UTF-8, as it is written and as it is read: what cannot be read becomes U+FFFD. -/
namespace RatifyOs.Data.Utf8

def encode (text : List Char) : Bytes := text.flatMap String.utf8EncodeChar

/-- A character that has begun: its bits so far, how many bytes are to come, and between which
bounds the next one has to be. -/
structure Pending where
  point : ℕ
  needed : ℕ
  lower : ℕ
  upper : ℕ

def replacement : Char := Char.ofNat 0xfffd

inductive Lead where
  | char (c : Char)
  | pending (p : Pending)

def lead (b : ℕ) : Lead :=
  if b ≤ 0x7f then .char (Char.ofNat b)
  else if 0xc2 ≤ b ∧ b ≤ 0xdf then .pending ⟨b - 0xc0,1,0x80,0xbf⟩
  else if 0xe0 ≤ b ∧ b ≤ 0xef then
    .pending ⟨b - 0xe0,2,if b = 0xe0 then 0xa0 else 0x80,if b = 0xed then 0x9f else 0xbf⟩
  else if 0xf0 ≤ b ∧ b ≤ 0xf4 then
    .pending ⟨b - 0xf0,3,if b = 0xf0 then 0x90 else 0x80,if b = 0xf4 then 0x8f else 0xbf⟩
  else .char replacement

def scan : Option Pending → Bytes → List Char
  | none, [] => []
  | some _, [] => [replacement]
  | none, b :: rest =>
    match lead b.toNat with
    | .char c => c :: scan none rest
    | .pending p => scan (some p) rest
  | some p, b :: rest =>
    if p.lower ≤ b.toNat ∧ b.toNat ≤ p.upper then
      let point := p.point * 64 + (b.toNat - 0x80)
      if p.needed = 1 then Char.ofNat point :: scan none rest
      else scan (some ⟨point,p.needed - 1,0x80,0xbf⟩) rest
    else
      -- the byte is read again, as the first of another character
      match lead b.toNat with
      | .char c => replacement :: c :: scan none rest
      | .pending p => replacement :: scan (some p) rest

/-- `toString("utf8")` -/
def decode (bytes : Bytes) : List Char := scan none bytes

section Scan
variable {p : Pending} {b n : ℕ} {rest : Bytes}

theorem scan_none (b : UInt8) : scan none (b :: rest) =
    match lead b.toNat with
    | .char c => c :: scan none rest
    | .pending p => scan (some p) rest := rfl

theorem scan_some (b : UInt8) : scan (some p) (b :: rest) =
    if p.lower ≤ b.toNat ∧ b.toNat ≤ p.upper then
      if p.needed = 1 then Char.ofNat (p.point * 64 + (b.toNat - 0x80)) :: scan none rest
      else scan (some ⟨p.point * 64 + (b.toNat - 0x80),p.needed - 1,0x80,0xbf⟩) rest
    else
      match lead b.toNat with
      | .char c => replacement :: c :: scan none rest
      | .pending p => replacement :: scan (some p) rest := rfl

theorem scan_char {c : Char} (small : b < 256) (here : lead b = .char c) :
    scan none (UInt8.ofNat b :: rest) = c :: scan none rest := by
  rw [scan_none,UInt8.toNat_ofNat',Nat.mod_eq_of_lt small,here]

theorem scan_lead (small : b < 256) (here : lead b = .pending p) :
    scan none (UInt8.ofNat b :: rest) = scan (some p) rest := by
  rw [scan_none,UInt8.toNat_ofNat',Nat.mod_eq_of_lt small,here]

theorem scan_tail {lower upper point : ℕ} (bits : n < 64) (low : lower ≤ n + 0x80) (high : n + 0x80 ≤ upper) (more : ℕ) :
    scan (some ⟨point,more + 2,lower,upper⟩) (UInt8.ofNat (n + 0x80) :: rest) =
      scan (some ⟨point * 64 + n,more + 1,0x80,0xbf⟩) rest := by
  have same : (UInt8.ofNat (n + 0x80)).toNat = n + 0x80 := by rw [UInt8.toNat_ofNat']; omega
  rw [scan_some,same,if_pos ⟨low,high⟩,Nat.add_sub_cancel,if_neg (by simp)]
  rfl

theorem scan_last {lower upper point : ℕ} (bits : n < 64) (low : lower ≤ n + 0x80) (high : n + 0x80 ≤ upper) :
    scan (some ⟨point,1,lower,upper⟩) (UInt8.ofNat (n + 0x80) :: rest) = Char.ofNat (point * 64 + n) :: scan none rest := by
  have same : (UInt8.ofNat (n + 0x80)).toNat = n + 0x80 := by rw [UInt8.toNat_ofNat']; omega
  rw [scan_some,same,if_pos ⟨low,high⟩,Nat.add_sub_cancel,if_pos rfl]

end Scan

section Written
variable {v : ℕ} {rest : Bytes}

theorem scan_two (low : 0x7f < v) (high : v ≤ 0x7ff) :
    scan none (UInt8.ofNat (v / 64 % 32 + 0xc0) :: UInt8.ofNat (v % 64 + 0x80) :: rest) = Char.ofNat v :: scan none rest := by
  have first : lead (v / 64 % 32 + 0xc0) = .pending ⟨v / 64,1,0x80,0xbf⟩ := by
    rw [lead,if_neg (by omega),if_pos (by omega)]
    simp only [Nat.add_sub_cancel,Nat.mod_eq_of_lt (show v / 64 < 32 by omega)]
  rw [scan_lead (by omega) first,scan_last (by omega) (by omega) (by omega),Nat.div_add_mod']

theorem scan_three (low : 0x7ff < v) (high : v ≤ 0xffff) (scalar : v < 0xd800 ∨ 0xdfff < v) :
    scan none (UInt8.ofNat (v / 4096 % 16 + 0xe0) :: UInt8.ofNat (v / 64 % 64 + 0x80) :: UInt8.ofNat (v % 64 + 0x80) :: rest) =
      Char.ofNat v :: scan none rest := by
  have bits : v / 4096 % 16 = v / 4096 := Nat.mod_eq_of_lt (by omega)
  have first : lead (v / 4096 % 16 + 0xe0) = .pending ⟨v / 4096,2,if v / 4096 = 0 then 0xa0 else 0x80,
      if v / 4096 = 13 then 0x9f else 0xbf⟩ := by
    rw [lead,if_neg (by omega),if_neg (by omega),if_pos (by omega)]
    have least : v / 4096 + 0xe0 = 0xe0 ↔ v / 4096 = 0 := by omega
    have greatest : v / 4096 + 0xe0 = 0xed ↔ v / 4096 = 13 := by omega
    simp only [bits,Nat.add_sub_cancel,least,greatest]
  have second : v / 4096 * 64 + v / 64 % 64 = v / 64 := by omega
  rw [scan_lead (by omega) first,scan_tail (by omega) (by split <;> omega) (by split <;> omega),
    scan_last (by omega) (by omega) (by omega),second,Nat.div_add_mod']

theorem scan_four (low : 0xffff < v) (high : v < 0x110000) :
    scan none (UInt8.ofNat (v / 262144 % 8 + 0xf0) :: UInt8.ofNat (v / 4096 % 64 + 0x80) ::
      UInt8.ofNat (v / 64 % 64 + 0x80) :: UInt8.ofNat (v % 64 + 0x80) :: rest) = Char.ofNat v :: scan none rest := by
  have bits : v / 262144 % 8 = v / 262144 := Nat.mod_eq_of_lt (by omega)
  have first : lead (v / 262144 % 8 + 0xf0) = .pending ⟨v / 262144,3,if v / 262144 = 0 then 0x90 else 0x80,
      if v / 262144 = 4 then 0x8f else 0xbf⟩ := by
    rw [lead,if_neg (by omega),if_neg (by omega),if_neg (by omega),if_pos (by omega)]
    have least : v / 262144 + 0xf0 = 0xf0 ↔ v / 262144 = 0 := by omega
    have greatest : v / 262144 + 0xf0 = 0xf4 ↔ v / 262144 = 4 := by omega
    simp only [bits,Nat.add_sub_cancel,least,greatest]
  have second : v / 262144 * 64 + v / 4096 % 64 = v / 4096 := by omega
  have third : v / 4096 * 64 + v / 64 % 64 = v / 64 := by omega
  rw [scan_lead (by omega) first,scan_tail (by omega) (by split <;> omega) (by split <;> omega),second,
    scan_tail (by omega) (by omega) (by omega),third,scan_last (by omega) (by omega) (by omega),Nat.div_add_mod']

/-- A character that was written is read. -/
theorem scan_encoded (c : Char) : scan none (String.utf8EncodeChar c ++ rest) = c :: scan none rest := by
  have scalar : c.val.toNat < 0xd800 ∨ 0xdfff < c.val.toNat ∧ c.val.toNat < 0x110000 := c.valid
  have same : Char.ofNat c.val.toNat = c := c.ofNat_toNat
  simp only [String.utf8EncodeChar]
  split_ifs with one two three
  · have first : lead c.val.toNat = .char c := by rw [lead,if_pos one,same]
    exact scan_char (by omega) first
  · exact (scan_two (by omega) two).trans (by rw [same]; rfl)
  · exact (scan_three (by omega) three (by omega)).trans (by rw [same]; rfl)
  · exact (scan_four (by omega) (by omega)).trans (by rw [same]; rfl)

end Written

theorem decode_encode (text : List Char) : decode (encode text) = text := by
  induction text with
  | nil => rfl
  | cons c text ih => exact (scan_encoded c).trans (congrArg _ ih)

theorem encode_inj {first second : List Char} (same : encode first = encode second) : first = second := by
  rw [← decode_encode first,same,decode_encode]

end RatifyOs.Data.Utf8
