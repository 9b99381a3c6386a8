/-
`getBroadcastIP` of `Utilidades.cpp`.

The network part of the address comes from a mask that is built as the complement of a sum of
powers, and is right for every prefix. To it the function adds `pow(complemento, 2) - 1`, a square,
where the last address of the network is `2^complemento - 1` further on. The two are the same for
two prefixes only ([`Red.getBroadcastIP_iff`]); `28`, with which the servers call it, is one of them.

Addresses go in and out as texts. Of `inet_addr` and `inet_ntoa` the result uses that the second is
read back by the first ([`Red.inet_addr_inet_ntoa`]).
-/
import Mathlib.Algebra.Ring.Int.Defs
import Mathlib.Tactic.IntervalCases
import LoadBalancer.Lib.Mask
import LoadBalancer.Utilidades

set_option autoImplicit false

namespace LoadBalancer

namespace Red

open LoadBalancer.Mask Utilidades

/-! ## Addresses -/

/-- `in_addr_t`, in the order of the network: the first byte in memory is the lowest one. -/
abbrev in_addr_t := BitVec 32

/-- The byte `i` in memory. -/
def octeto (x : in_addr_t) (i : ℕ) : ℕ := x.toNat / 256 ^ i % 256

/-- An address of four bytes. -/
def deOctetos (a b c d : ℕ) : in_addr_t :=
  BitVec.ofNat 32 (a + 256 * b + 65536 * c + 16777216 * d)

/-- `htonl`, which turns the bytes round. -/
def htonl (x : in_addr_t) : in_addr_t :=
  deOctetos (octeto x 3) (octeto x 2) (octeto x 1) (octeto x 0)

/-- `ntohl`. -/
def ntohl (x : in_addr_t) : in_addr_t := htonl x

/-- `inet_ntoa`: the text in the static buffer. -/
def inet_ntoa (x : in_addr_t) : Texto :=
  to_string (octeto x 0) ++ '.' :: (to_string (octeto x 1) ++ '.' :: (to_string (octeto x 2)
    ++ '.' :: to_string (octeto x 3)))

/-- `INADDR_NONE`. -/
def INADDR_NONE : in_addr_t := 0xffffffff

/-- The value of a digit of base 16. -/
def cifra (c : Char) : Option ℕ :=
  if c.isDigit then some (c.toNat - 48)
  else if 'a' ≤ c ∧ c ≤ 'f' then some (c.toNat - 87)
  else if 'A' ≤ c ∧ c ≤ 'F' then some (c.toNat - 55)
  else none

/-- The value of digits of a base, all of them. -/
def valor (base : ℕ) : ℕ → Texto → Option ℕ
  | acc, [] => some acc
  | acc, c :: cs =>
      (cifra c).bind fun d => if d < base then valor base (acc * base + d) cs else none

/-- A part of an address, in the notation of C. -/
def parte : Texto → Option ℕ
  | [] => none
  | ['0'] => some 0
  | '0' :: c :: cs =>
      if c = 'x' ∨ c = 'X' then if cs = [] then none else valor 16 0 cs else valor 8 0 (c :: cs)
  | cs => valor 10 0 cs

/-- `inet_addr`: one to four parts, of which the last one fills the rest of the address. -/
def inet_addr (cp : Texto) : in_addr_t :=
  match ((cp.takeWhile (!isspace ·)).splitOn '.').mapM parte with
  | some [a, b, c, d] =>
      if a < 256 ∧ b < 256 ∧ c < 256 ∧ d < 256 then deOctetos a b c d else INADDR_NONE
  | some [a, b, c] =>
      if a < 256 ∧ b < 256 ∧ c < 65536 then deOctetos a b (c / 256) (c % 256) else INADDR_NONE
  | some [a, b] =>
      if a < 256 ∧ b < 16777216 then deOctetos a (b / 65536) (b / 256 % 256) (b % 256)
      else INADDR_NONE
  | some [a] => if a < 4294967296 then htonl (BitVec.ofNat 32 a) else INADDR_NONE
  | _ => INADDR_NONE

/-! ## The code -/

/-- The loop of `getBroadcastIP`: `suma` after `i` turns. -/
def sumaPotencias : ℕ → ℤ
  | 0 => 0
  | i + 1 => sumaPotencias i + 2 ^ i

/-- `getBroadcastIP`; `none` when a `double` is converted to a type that does not have its
value. -/
def getBroadcastIP (ip : Texto) (mascara : ℤ) : Option Texto :=
  let direccion_local := htonl (inet_addr (c_str ip))
  let complemento := 32 - mascara
  let suma := sumaPotencias complemento.toNat
  if INT32_MAX < suma then none
  else
    let mascara_red := -suma - 1
    let direccion_subnet := BitVec.ofInt 32 mascara_red &&& direccion_local
    let suma_subnet := (direccion_subnet.toNat : ℤ) + (complemento ^ 2 - 1)
    if 0 ≤ suma_subnet ∧ suma_subnet < 4294967296 then
      some (inet_ntoa (ntohl (BitVec.ofInt 32 suma_subnet)))
    else none

/-! ## Texts of addresses -/

theorem octeto_lt (x : in_addr_t) (i : ℕ) : octeto x i < 256 := Nat.mod_lt _ (by decide)

theorem toNat_deOctetos {a b c d : ℕ} (ha : a < 256) (hb : b < 256) (hc : c < 256) (hd : d < 256) :
    (deOctetos a b c d).toNat = a + 256 * b + 65536 * c + 16777216 * d := by
  rw [deOctetos, BitVec.toNat_ofNat]
  omega

/-- An address is made of its bytes. -/
theorem deOctetos_octeto (x : in_addr_t) :
    deOctetos (octeto x 0) (octeto x 1) (octeto x 2) (octeto x 3) = x := by
  apply BitVec.eq_of_toNat_eq
  rw [toNat_deOctetos (octeto_lt x 0) (octeto_lt x 1) (octeto_lt x 2) (octeto_lt x 3)]
  have hx := x.isLt
  simp only [octeto]
  omega

/-- And they are its bytes. -/
theorem octeto_deOctetos {a b c d : ℕ} (ha : a < 256) (hb : b < 256) (hc : c < 256)
    (hd : d < 256) :
    octeto (deOctetos a b c d) 0 = a ∧ octeto (deOctetos a b c d) 1 = b
      ∧ octeto (deOctetos a b c d) 2 = c ∧ octeto (deOctetos a b c d) 3 = d := by
  simp only [octeto, toNat_deOctetos ha hb hc hd]
  omega

theorem htonl_htonl (x : in_addr_t) : htonl (htonl x) = x := by
  obtain ⟨h0, h1, h2, h3⟩ :=
    octeto_deOctetos (octeto_lt x 3) (octeto_lt x 2) (octeto_lt x 1) (octeto_lt x 0)
  conv_lhs => rw [htonl, htonl, h0, h1, h2, h3]
  exact deOctetos_octeto x

/-- A part that is a byte in decimal. -/
theorem parte_to_string {n : ℕ} (h : n < 256) : parte (to_string n) = some n := by
  have hall : ∀ k : Fin 256, parte (Nat.toDigits 10 k) = some k.val := by decide +kernel
  rw [to_string_eq]
  exact hall ⟨n, h⟩

theorem punto_not_mem (n : ℕ) : '.' ∉ to_string n := by
  intro h
  exact absurd (isDigit_of_mem_to_string h) (by decide)

theorem digito_o_punto {x : in_addr_t} {c : Char} (h : c ∈ inet_ntoa x) :
    c.isDigit = true ∨ c = '.' := by
  simp only [inet_ntoa, List.mem_append, List.mem_cons] at h
  rcases h with h | h | h | h | h | h | h
  · exact .inl (isDigit_of_mem_to_string h)
  · exact .inr h
  · exact .inl (isDigit_of_mem_to_string h)
  · exact .inr h
  · exact .inl (isDigit_of_mem_to_string h)
  · exact .inr h
  · exact .inl (isDigit_of_mem_to_string h)

/-- **The text of an address is read back.** -/
theorem inet_addr_inet_ntoa (x : in_addr_t) : inet_addr (inet_ntoa x) = x := by
  have hblanco : ∀ c ∈ inet_ntoa x, (!isspace c) = true := by
    intro c hc
    rcases digito_o_punto hc with hdigito | rfl
    · rw [isspace_of_isDigit hdigito, Bool.not_false]
    · decide
  have hpartes : ((inet_ntoa x).splitOn '.').mapM parte
      = some [octeto x 0, octeto x 1, octeto x 2, octeto x 3] := by
    rw [inet_ntoa, List.splitOn_append_cons_self_of_not_mem (punto_not_mem _),
      List.splitOn_append_cons_self_of_not_mem (punto_not_mem _),
      List.splitOn_append_cons_self_of_not_mem (punto_not_mem _),
      List.splitOn_eq_singleton (punto_not_mem _)]
    simp only [List.mapM_cons, List.mapM_nil, parte_to_string (octeto_lt x _)]
    rfl
  rw [inet_addr, List.takeWhile_eq_self_iff.mpr hblanco, hpartes]
  dsimp only
  rw [if_pos ⟨octeto_lt x 0, octeto_lt x 1, octeto_lt x 2, octeto_lt x 3⟩, deOctetos_octeto]

theorem inet_ntoa_inj {x y : in_addr_t} (h : inet_ntoa x = inet_ntoa y) : x = y := by
  rw [← inet_addr_inet_ntoa x, h, inet_addr_inet_ntoa]

/-- The text of an address in the order of the machine. -/
def texto (direccion : BitVec 32) : Texto := inet_ntoa (htonl direccion)

theorem texto_inj {a b : BitVec 32} (h : texto a = texto b) : a = b := by
  have hbytes := inet_ntoa_inj h
  rw [← htonl_htonl a, hbytes, htonl_htonl]

/-- The address that `getBroadcastIP` reads. -/
theorem direccion_local_eq (a : BitVec 32) : htonl (inet_addr (c_str (texto a))) = a := by
  have hnul : NUL ∉ texto a := by
    intro h
    rcases digito_o_punto h with h | h
    · exact absurd h (by decide)
    · exact absurd h (by decide)
  rw [c_str_of_not_mem hnul, texto, inet_addr_inet_ntoa, htonl_htonl]

/-! ## The address of the broadcast -/

theorem sumaPotencias_eq (i : ℕ) : sumaPotencias i = 2 ^ i - 1 := by
  induction i with
  | zero => rfl
  | succ i ih =>
      rw [sumaPotencias, ih, Int.pow_succ]
      omega

/-- **The mask is that of the prefix.** -/
theorem mascara_red_eq {c : ℕ} (hc : c < 32) :
    BitVec.ofInt 32 (-sumaPotencias c - 1) = ~~~low 32 c := by
  have hall : ∀ k : Fin 32, BitVec.ofInt 32 (-(2 ^ k.val - 1) - 1) = ~~~low 32 k.val := by
    decide +kernel
  rw [sumaPotencias_eq]
  exact hall ⟨c, hc⟩

/-- **What `getBroadcastIP` returns**: the first address of the network and a square. -/
theorem getBroadcastIP_texto (a : BitVec 32) {c : ℕ} (hc : c < 32) :
    getBroadcastIP (texto a) (32 - c)
      = if 0 ≤ ((block a c).toNat : ℤ) + ((c : ℤ) ^ 2 - 1)
          ∧ ((block a c).toNat : ℤ) + ((c : ℤ) ^ 2 - 1) < 4294967296 then
          some (texto (BitVec.ofInt 32 ((block a c).toNat + ((c : ℤ) ^ 2 - 1))))
        else none := by
  have hcomplemento : (32 : ℤ) - (32 - c) = c := by omega
  have hsuma : ¬ INT32_MAX < sumaPotencias c := by
    have hpow : 2 ^ c ≤ 2 ^ 31 := Nat.pow_le_pow_right (by decide) (by omega)
    have hcast : ((2 ^ c : ℕ) : ℤ) = 2 ^ c := Int.natCast_pow 2 c
    rw [sumaPotencias_eq, INT32_MAX, ← hcast]
    omega
  rw [getBroadcastIP, direccion_local_eq]
  dsimp only
  rw [hcomplemento, Int.toNat_natCast, if_neg hsuma, mascara_red_eq hc, BitVec.and_comm]
  rfl

/-- The square is one less than a power of two for two lengths of the host part. -/
theorem cuadrado_iff {c : ℕ} (h1 : 1 ≤ c) (h31 : c ≤ 31) :
    c ^ 2 = 2 ^ c ↔ c = 2 ∨ c = 4 := by
  interval_cases c <;> decide

/-- **When `getBroadcastIP` is right.** For every address, the result is the address with all bits
below the prefix set exactly for these two prefixes. The function adds a square where the last
address is a power of two further on. -/
theorem getBroadcastIP_iff (a : BitVec 32) {mascara : ℤ} (h1 : 1 ≤ mascara) (h31 : mascara ≤ 31) :
    getBroadcastIP (texto a) mascara = some (texto (last a (32 - mascara).toNat))
      ↔ mascara = 28 ∨ mascara = 30 := by
  obtain ⟨c, hc⟩ : ∃ c : ℕ, 32 - mascara = c := Int.eq_ofNat_of_zero_le (by omega)
  obtain rfl : mascara = 32 - c := by omega
  have hc32 : c < 32 := by omega
  have hsin : (block a c).toNat + (2 ^ c - 1) < 2 ^ 32 := toNat_block_add_lt a (by omega)
  have hpos : 0 < 2 ^ c := Nat.two_pow_pos c
  have hultima : (last a c).toNat = (block a c).toNat + (2 ^ c - 1) := by
    rw [← block_add_low, BitVec.toNat_add, low, BitVec.toNat_ofNat, Nat.mod_eq_of_lt (a := 2 ^ c - 1),
      Nat.mod_eq_of_lt hsin]
    omega
  have hcasos : (32 - (c : ℤ) = 28 ∨ 32 - (c : ℤ) = 30) ↔ c = 2 ∨ c = 4 := by omega
  rw [getBroadcastIP_texto a hc32, hc, Int.toNat_natCast, hcasos,
    ← cuadrado_iff (by omega) (by omega)]
  have hcuadrado : ((c : ℤ) ^ 2) = ((c ^ 2 : ℕ) : ℤ) := (Int.natCast_pow c 2).symm
  have huno : 1 ≤ c ^ 2 := Nat.one_le_pow _ _ (by omega)
  rw [hcuadrado]
  constructor
  · intro h
    split_ifs at h with hcabe
    have hdir := congrArg BitVec.toNat (texto_inj (Option.some.inj h))
    rw [BitVec.toNat_ofInt, hultima] at hdir
    omega
  · intro h
    rw [h, if_pos ⟨by omega, by omega⟩]
    congr 2
    apply BitVec.eq_of_toNat_eq
    rw [BitVec.toNat_ofInt, hultima]
    omega

/-- The prefix that the servers use. -/
theorem getBroadcastIP_28 :
    getBroadcastIP (texto 0xac107b30) 28 = some (texto (last 0xac107b30 4)) :=
  (getBroadcastIP_iff 0xac107b30 (by decide) (by decide)).mpr (.inl rfl)

/-- **A network of 256 addresses**: of `192.168.1.10/24` it says `192.168.1.63`. -/
theorem getBroadcastIP_24 :
    ¬ ∀ (a : BitVec 32) (mascara : ℤ), 1 ≤ mascara → mascara ≤ 31 →
      getBroadcastIP (texto a) mascara = some (texto (last a (32 - mascara).toNat)) := by
  intro hall
  have hred := hall 0xc0a8010a 24 (by decide) (by decide)
  have hcodigo : getBroadcastIP (texto 0xc0a8010a) 24 = some (texto 0xc0a8013f) := by
    have heq := getBroadcastIP_texto 0xc0a8010a (c := 8) (by decide)
    rwa [if_pos (by decide)] at heq
  rw [hcodigo] at hred
  exact absurd (texto_inj (Option.some.inj hred)) (by decide)

end Red

end LoadBalancer
