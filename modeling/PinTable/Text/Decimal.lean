set_option autoImplicit false

namespace PinTable

def digitChar (n : Nat) : Char := Char.ofNat (48 + n)

def digitValue (c : Char) : Nat := c.toNat - 48

theorem digitValue_digitChar : ∀ n < 10, digitValue (digitChar n) = n := by decide

theorem isDigit_digitChar : ∀ n < 10, (digitChar n).isDigit = true := by decide

/-- The number that a run of decimal digits denotes, continuing from the digits before it. -/
def decimalValue (before : Nat) : List Char → Nat
  | [] => before
  | c :: rest => decimalValue (digitValue c + 10 * before) rest

theorem decimalValue_append (before : Nat) (first second : List Char) :
    decimalValue before (first ++ second) = decimalValue (decimalValue before first) second := by
  induction first generalizing before with
  | nil => rfl
  | cons c rest ih => simp only [List.cons_append, decimalValue, ih]

theorem decimalValue_singleton (before : Nat) (c : Char) :
    decimalValue before [c] = digitValue c + 10 * before := by
  simp only [decimalValue]

/-- The decimal digits of a natural number, without leading zeros. -/
def decimalDigits (n : Nat) : List Char :=
  if n < 10 then [digitChar n] else decimalDigits (n / 10) ++ [digitChar (n % 10)]

theorem decimalDigits_ne_nil (n : Nat) : decimalDigits n ≠ [] := by
  rw [decimalDigits]
  split <;> simp

theorem decimalDigits_isDigit (n : Nat) : ∀ c ∈ decimalDigits n, c.isDigit = true := by
  induction n using Nat.strongRecOn with
  | _ n ih =>
      rw [decimalDigits]
      split
      · next small => simpa using isDigit_digitChar n small
      · intro c member
        rcases List.mem_append.1 member with before | last
        · exact ih (n / 10) (by omega) c before
        · rw [List.mem_singleton.1 last]
          exact isDigit_digitChar (n % 10) (Nat.mod_lt n (by decide))

/-- The digits written for a number denote it. -/
theorem decimalValue_decimalDigits (n : Nat) : decimalValue 0 (decimalDigits n) = n := by
  induction n using Nat.strongRecOn with
  | _ n ih =>
      rw [decimalDigits]
      split
      · next small =>
          rw [decimalValue_singleton, digitValue_digitChar n small]
          omega
      · rw [decimalValue_append, ih (n / 10) (by omega), decimalValue_singleton,
          digitValue_digitChar (n % 10) (Nat.mod_lt n (by decide))]
        omega

def natText (n : Nat) : String := String.ofList (decimalDigits n)

/-- The decimal text of an integer; a negative one starts with a minus sign. -/
def intText (n : Int) : String :=
  if n < 0 then "-" ++ natText n.natAbs else natText n.natAbs

/-- The natural number that a text of decimal digits denotes; leading zeros are allowed. -/
def readNat? (text : List Char) : Option Nat :=
  if text ≠ [] ∧ text.all Char.isDigit then some (decimalValue 0 text) else none

/-- The integer that a text denotes: at most one sign, then decimal digits. -/
def readInt? (text : List Char) : Option Int :=
  match text with
  | '-' :: digits => (readNat? digits).map fun n => -(n : Int)
  | '+' :: digits => (readNat? digits).map fun n => (n : Int)
  | digits => (readNat? digits).map fun n => (n : Int)

theorem readNat?_decimalDigits (n : Nat) : readNat? (decimalDigits n) = some n := by
  have digits : (decimalDigits n).all Char.isDigit = true :=
    List.all_eq_true.2 (decimalDigits_isDigit n)
  simp [readNat?, decimalDigits_ne_nil, digits, decimalValue_decimalDigits]

end PinTable
