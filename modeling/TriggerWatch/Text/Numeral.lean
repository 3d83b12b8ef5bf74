/-
# Numbers as text

`Text.decimal` writes an integer in base ten, with a minus sign in front of a negative one; that is
how a handle or the number of a failure is displayed.  `Text.hex` writes a natural number with the
sixteen digits `0` to `f`, as the bits of a flag set that have no name are, and `Text.hexValue?`
reads such digits back, in either case and with leading zeros.  A decimal text is that of one
integer only (`Text.eq_of_decimal_eq`), and what is written in base sixteen is read as the same
number (`Text.hexValue?_hex`).
-/

namespace TriggerWatch
namespace Text

/-- An integer in base ten, without leading zeros. -/
def decimal : Int → List Char
  | .ofNat n => Nat.toDigits 10 n
  | .negSucc n => '-' :: Nat.toDigits 10 (n + 1)

/-- There is nothing in a decimal text but digits and the minus sign. -/
theorem notMem_decimal {n : Int} {c : Char} (hdigit : c.isDigit = false) (hminus : c ≠ '-') :
    c ∉ decimal n := by
  have hdigits : ∀ m : Nat, c ∉ Nat.toDigits 10 m := fun m hc => by
    simp [Nat.isDigit_of_mem_toDigits (by decide) (by decide) hc] at hdigit
  cases n with
  | ofNat m => exact hdigits m
  | negSucc m => exact List.not_mem_cons_of_ne_of_not_mem hminus (hdigits (m + 1))

/-- Different integers are written differently. -/
theorem eq_of_decimal_eq {m n : Int} (h : decimal m = decimal n) : m = n := by
  have hdigits : ∀ {a b : Nat}, Nat.toDigits 10 a = Nat.toDigits 10 b → a = b := by
    intro a b hab
    have hread := congrArg (Nat.ofDigitChars 10 · 0) hab
    simpa using hread
  have hminus : ∀ a b : Nat, Nat.toDigits 10 a ≠ '-' :: Nat.toDigits 10 b := by
    intro a b hab
    have hmem : '-' ∈ Nat.toDigits 10 a := hab ▸ List.mem_cons_self
    exact absurd (Nat.isDigit_of_mem_toDigits (by decide) (by decide) hmem) (by decide)
  cases m with
  | ofNat a =>
    cases n with
    | ofNat b => rw [hdigits h]
    | negSucc b => exact absurd h (hminus a (b + 1))
  | negSucc a =>
    cases n with
    | ofNat b => exact absurd h.symm (hminus b (a + 1))
    | negSucc b =>
      have hsucc := hdigits (List.cons.inj h).2
      rw [Nat.succ.inj hsucc]

/-- A natural number in base sixteen, lower case, without leading zeros. -/
def hex (n : Nat) : List Char := Nat.toDigits 16 n

/-- The value of a digit of base sixteen, in either case. -/
def hexDigit? (c : Char) : Option Nat :=
  if '0' ≤ c ∧ c ≤ '9' then some (c.toNat - '0'.toNat)
  else if 'a' ≤ c ∧ c ≤ 'f' then some (c.toNat - 'a'.toNat + 10)
  else if 'A' ≤ c ∧ c ≤ 'F' then some (c.toNat - 'A'.toNat + 10)
  else none

/-- The number that a text of digits of base sixteen stands for; there must be at least one digit,
and nothing but digits. -/
def hexValue? : List Char → Option Nat
  | [] => none
  | c :: cs => (c :: cs).foldlM (fun n d => (hexDigit? d).map (16 * n + ·)) 0

/-- The reader of digits takes back what the writer has written. -/
theorem hexDigit?_digitChar {d : Nat} (h : d < 16) : hexDigit? d.digitChar = some d := by
  revert d
  decide

/-- There is nothing in a text of base sixteen but the sixteen digits. -/
theorem exists_digitChar_of_mem_hex {n : Nat} {c : Char} (h : c ∈ hex n) :
    ∃ d < 16, c = d.digitChar := by
  induction n using Nat.strongRecOn with
  | _ n ih =>
    rw [hex, Nat.toDigits_eq_if (by decide)] at h
    split at h
    next hlt => exact ⟨n, hlt, List.mem_singleton.1 h⟩
    next hge =>
      rcases List.mem_append.1 h with hfront | hlast
      · exact ih (n / 16) (by omega) hfront
      · exact ⟨n % 16, by omega, List.mem_singleton.1 hlast⟩

/-- A numeral consists of digits. -/
theorem notMem_hex {n : Nat} {c : Char} (h : hexDigit? c = none) : c ∉ hex n := by
  intro hc
  obtain ⟨d, hd, rfl⟩ := exists_digitChar_of_mem_hex hc
  exact Option.some_ne_none d ((hexDigit?_digitChar hd).symm.trans h)

/-- **What is written in base sixteen is read back.** -/
theorem hexValue?_hex (n : Nat) : hexValue? (hex n) = some n := by
  -- the digits are read from left to right, so what is known is the number of all but the last
  have hread : (hex n).foldlM (fun n d => (hexDigit? d).map (16 * n + ·)) 0 = some n := by
    induction n using Nat.strongRecOn with
    | _ n ih =>
      rw [hex, Nat.toDigits_eq_if (by decide)]
      split
      next hlt => simp [hexDigit?_digitChar hlt]
      next hge =>
        rw [List.foldlM_append, ← hex, ih (n / 16) (by omega)]
        simp [hexDigit?_digitChar (Nat.mod_lt n (by decide)), Nat.div_add_mod]
  unfold hexValue?
  split
  next hnil => exact absurd hnil Nat.toDigits_ne_nil
  next hcons => rw [← hcons, hread]

end Text
end TriggerWatch
