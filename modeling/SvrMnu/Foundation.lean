import SvrMnu.Sys.Effect
import Mathlib.Data.Rat.Floor
import Mathlib.Data.List.Basic

/-!
# Messages to the objects of a parsed response

`Obj` is what `NSJSONSerialization` makes of a body; a nil reference is `none`. The messages the menus send to such
objects are functions into `Except NSException`:

- a message to nil answers nil, `0` or `NO`;
- `intValue` is understood by strings and numbers only, `isEqualToString:` asks its argument for its characters, and
  only collections are enumerated;
- `valueForKey:` looks a key up in a dictionary, maps over an array with `NSNull` for a missing value, and raises on
  everything else.
-/

set_option autoImplicit false

namespace SvrMnu

open Sys

/-- The objects of a parsed body. -/
inductive Obj
  | null
  | bool (b : Bool)
  | number (q : ℚ)
  | string (s : String)
  | array (xs : List Obj)
  | dict (kvs : List (String × Obj))

inductive NSException
  /-- `doesNotRecognizeSelector:` -/
  | unrecognizedSelector (selector : String)
  /-- `valueForUndefinedKey:` -/
  | undefinedKey (key : String)
  deriving DecidableEq

/-- Code that changes an object and may raise; the object stays as it was when the exception was raised. -/
abbrev ObjC (σ : Type) := EStateM NSException σ

/-- The answer of a message, or its exception. -/
def send {σ α : Type} : Except NSException α → ObjC σ α
  | .ok a => pure a
  | .error e => throw e

/-! ## Numbers -/

/-- The value of leading decimal digits. -/
def decimal (cs : List Char) : Int :=
  (cs.takeWhile Char.isDigit).foldl (fun n c => 10 * n + (c.toNat - '0'.toNat : Nat)) 0

/-- `INT_MAX` or `INT_MIN` on overflow. -/
def clampInt (n : Int) : Int32 :=
  if n > 2147483647 then Int32.maxValue else if n < -2147483648 then Int32.minValue else Int32.ofInt n

/-- `-[NSString intValue]`: white space is skipped, and `0` stands for a string that starts with no number. Only the
white space of ASCII is skipped here, where `NSString` knows more of it. -/
def stringIntValue (s : String) : Int32 :=
  match s.toList.dropWhile Char.isWhitespace with
  | '-' :: cs => clampInt (-decimal cs)
  | '+' :: cs => clampInt (decimal cs)
  | cs => clampInt (decimal cs)

/-- `-[NSNumber intValue]`: the fraction is dropped, and the rest converted to 32 bits. That is what happens to the
integers of a body; a number with a fraction that is out of range is a double there, and wraps here all the same. -/
def numberIntValue (q : ℚ) : Int32 := Int32.ofInt (q.num.tdiv q.den)

/-- The conversion of a double without a fraction to `int`. C leaves it open what a value out of range becomes, and the
instruction `cvttsd2si` makes it `INT_MIN`. -/
def intOfDouble (n : Int) : Int32 :=
  if -2147483648 ≤ n ∧ n ≤ 2147483647 then Int32.ofInt n else Int32.minValue

def intValue : Option Obj → Except NSException Int32
  | none => .ok 0
  | some (.string s) => .ok (stringIntValue s)
  | some (.number q) => .ok (numberIntValue q)
  | some (.bool b) => .ok (if b then 1 else 0)
  | some .null | some (.array _) | some (.dict _) => .error (.unrecognizedSelector "intValue")

/-! ## Strings and collections -/

/-- `isEqualToString:` to a receiver that is a string or nil. -/
def isEqualToString : Option String → Option Obj → Except NSException Bool
  | none, _ | some _, none => .ok false
  | some a, some (.string b) => .ok (a == b)
  | some _, some _ => .error (.unrecognizedSelector "length")

def isKindOfString : Option Obj → Bool
  | some (.string _) => true
  | _ => false

/-- The objects a `for … in` loop goes over: a dictionary is enumerated by its keys. -/
def enumerate : Option Obj → Except NSException (List Obj)
  | none => .ok []
  | some (.array xs) => .ok xs
  | some (.dict kvs) => .ok (kvs.map fun kv => .string kv.1)
  | some _ => .error (.unrecognizedSelector "countByEnumeratingWithState:objects:count:")

mutual
def Obj.valueForKey (key : String) : Obj → Except NSException (Option Obj)
  | .dict kvs => .ok (kvs.lookup key)
  | .array xs => return some (.array (← Obj.valuesForKey key xs))
  | _ => .error (.undefinedKey key)

def Obj.valuesForKey (key : String) : List Obj → Except NSException (List Obj)
  | [] => return []
  | x :: xs => do
    let v ← Obj.valueForKey key x
    let vs ← Obj.valuesForKey key xs
    return v.getD .null :: vs
end

def valueForKey (key : String) : Option Obj → Except NSException (Option Obj)
  | none => .ok none
  | some o => o.valueForKey key

/-! ## Formatted strings -/

/-- A piece of a formatted string: its own text, or a `%@` argument as the object it is. -/
inductive Piece
  | lit (s : String)
  | obj (o : Option Obj)

/-- What `stringWithFormat:` makes, before the arguments are asked for their descriptions. -/
abbrev Text := List Piece

section Laws

variable {σ α β : Type}

theorem toInt_intOfDouble {n : Int} (hlo : -2147483648 ≤ n) (hhi : n ≤ 2147483647) : (intOfDouble n).toInt = n := by
  unfold intOfDouble
  rw [if_pos ⟨hlo, hhi⟩]
  exact Int32.toInt_ofInt_of_le (by omega) (by omega)

@[simp] theorem send_ok (a : α) (s : σ) : (send (.ok a) : ObjC σ α) s = .ok a s := rfl

theorem raises_send {r : Except NSException α} {e : NSException} (h : r = .error e) (s : σ) :
    Raises (send r) s := ⟨e, s, by rw [h]; rfl⟩

theorem keeps_send {R : σ → σ → Prop} [Std.Refl R] (r : Except NSException α) : Keeps R (send r : ObjC σ α) := by
  cases r with
  | ok a => exact Keeps.pure a
  | error e => exact Keeps.throw e

/-- A dictionary answers `valueForKey:` by looking the key up. -/
@[simp] theorem valueForKey_dict (key : String) (kvs : List (String × Obj)) :
    valueForKey key (some (.dict kvs)) = .ok (kvs.lookup key) := by
  simp [valueForKey, Obj.valueForKey]

@[simp] theorem valueForKey_none (key : String) : valueForKey key none = .ok none := rfl

/-- Everything but a dictionary raises on `valueForKey:` or answers with an array. -/
theorem valueForKey_notDict (key : String) {o : Obj} (h : ∀ kvs, o ≠ .dict kvs) :
    (∃ e, valueForKey key (some o) = .error e) ∨ ∃ ys, valueForKey key (some o) = .ok (some (.array ys)) := by
  cases o with
  | dict kvs => exact absurd rfl (h kvs)
  | array xs =>
    simp only [valueForKey, Obj.valueForKey]
    cases Obj.valuesForKey key xs with
    | error e => exact Or.inl ⟨e, rfl⟩
    | ok ys => exact Or.inr ⟨ys, rfl⟩
  | null | bool | number | string => exact Or.inl ⟨.undefinedKey key, by simp only [valueForKey, Obj.valueForKey]⟩

/-- So a number cannot be read from it. -/
theorem raises_intValue_notDict (key : String) {o : Obj} (h : ∀ kvs, o ≠ .dict kvs) (f : Option Obj → Int32 → ObjC σ β)
    (s : σ) : Raises (do let v ← send (valueForKey key (some o)); let n ← send (intValue v); f v n) s := by
  rcases valueForKey_notDict key h with ⟨e, he⟩ | ⟨ys, hy⟩
  · exact (raises_send he s).bind_left
  · rw [hy]
    exact Raises.bind_right (send_ok _ _) (raises_send rfl s).bind_left

end Laws

end SvrMnu
