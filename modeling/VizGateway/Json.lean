import VizGateway.Action

/-!
# Values off the wire

JSON values as the handlers meet them: strings, integers, booleans, null and arrays of strings
apart, every other value (objects, fractions, mixed arrays) by its source text and by what
`String(..)` makes of it.
-/

namespace VizGateway

open Text

inductive Json
  | null
  | bool (b : Bool)
  | num (n : ℤ)
  | str (s : String)
  | strs (items : List String)
  | other (raw text : String)
  deriving DecidableEq, Repr

/-- A parsed JSON object; a repeated key keeps its last value. -/
abbrev JsonObject := List (String × Json)

/-- `o[key]`, `none` for `undefined`. -/
def JsonObject.get (o : JsonObject) (key : String) : Option Json :=
  (o.reverse.find? (·.1 == key)).map (·.2)

/-- `key in o`. -/
def JsonObject.has (o : JsonObject) (key : String) : Bool := o.any (·.1 == key)

/-- `String(v)`. -/
def jsString : Option Json → String
  | none => "undefined"
  | some .null => "null"
  | some (.bool true) => "true"
  | some (.bool false) => "false"
  | some (.num n) => bigintText n
  | some (.str s) => s
  | some (.strs items) => String.intercalate "," items
  | some (.other _ text) => text

/-- `String(v ?? dflt)`. -/
def jsStringOr (dflt : String) : Option Json → String
  | none | some .null => dflt
  | v => jsString v

/-- `v` unless it is null. -/
def nonNull : Option Json → Option Json
  | some .null => none
  | v => v

/-- Whether `v` counts as true in a condition. -/
def jsTruthy : Option Json → Bool
  | none | some .null | some (.bool false) => false
  | some (.bool true) => true
  | some (.num n) => n ≠ 0
  | some (.str s) => s ≠ ""
  | some (.strs _) | some (.other _ _) => true

/-! ## `BigInt` -/

def digitValue (c : Char) : ℕ :=
  if c.isDigit then c.toNat - '0'.toNat
  else if c.isLower then c.toNat - 'a'.toNat + 10
  else if c.isUpper then c.toNat - 'A'.toNat + 10
  else 36

/-- A non-empty string of digits of a radix. -/
def parseRadix (radix : ℕ) (ds : List Char) : Option ℤ :=
  if ds = [] then none
  else if ds.all (digitValue · < radix) then
    some (ds.foldl (fun acc c => acc * radix + digitValue c) (0 : ℕ) : ℕ)
  else none

/-- `BigInt(s)` of a string, `none` when it throws. -/
def bigIntOfString (s : String) : Option ℤ :=
  match (trim s).toList with
  | [] => some 0
  | '-' :: ds => (parseRadix 10 ds).map (- ·)
  | '+' :: ds => parseRadix 10 ds
  | '0' :: c :: ds =>
    if c = 'x' ∨ c = 'X' then parseRadix 16 ds
    else if c = 'o' ∨ c = 'O' then parseRadix 8 ds
    else if c = 'b' ∨ c = 'B' then parseRadix 2 ds
    else parseRadix 10 ('0' :: c :: ds)
  | ds => parseRadix 10 ds

/-- `BigInt(v)`. -/
def bigIntOf : Option Json → Option ℤ
  | none | some .null => none
  | some (.bool b) => some (if b then 1 else 0)
  | some (.num n) => some n
  | some (.str s) => bigIntOfString s
  | some (.strs items) => bigIntOfString (String.intercalate "," items)
  | some (.other _ text) => bigIntOfString text

theorem digitValue_of_isDigit {c : Char} (h : c.isDigit = true) :
    digitValue c = c.toNat - '0'.toNat ∧ digitValue c < 10 := by
  have hv : digitValue c = c.toNat - '0'.toNat := by
    unfold digitValue
    rw [if_pos h]
  refine ⟨hv, ?_⟩
  rw [hv]
  simp only [Char.isDigit, Bool.and_eq_true, decide_eq_true_eq, UInt32.le_iff_toNat_le] at h
  have h2 : c.toNat ≤ 57 := h.2
  have h0 : '0'.toNat = 48 := rfl
  omega

/-- A digit string is the number it spells. -/
theorem parseRadix_digits {ds : List Char} (hne : ds ≠ []) (hd : ∀ c ∈ ds, c.isDigit = true) :
    parseRadix 10 ds = some ((Nat.ofDigitChars 10 ds 0 : ℕ) : ℤ) := by
  have hfold : ∀ (l : List Char) (n : ℕ), (∀ c ∈ l, c.isDigit = true) →
      l.foldl (fun acc c => acc * 10 + digitValue c) n = Nat.ofDigitChars 10 l n := by
    intro l
    induction l with
    | nil => intro n _; rfl
    | cons c l ih =>
      intro n hl
      rw [List.foldl_cons, ih _ fun x hx => hl x (List.mem_cons_of_mem _ hx),
        (digitValue_of_isDigit (hl c List.mem_cons_self)).1, Nat.ofDigitChars_cons, Nat.mul_comm]
  unfold parseRadix
  rw [if_neg hne, if_pos (List.all_eq_true.2 fun c hc => by
    simpa using (digitValue_of_isDigit (hd c hc)).2), hfold ds 0 hd]

theorem bigIntOfString_digits {s : String} (hne : s.toList ≠ [])
    (hdig : ∀ c ∈ s.toList, c.isDigit = true) :
    bigIntOfString s = some ((Nat.ofDigitChars 10 s.toList 0 : ℕ) : ℤ) := by
  have hval := parseRadix_digits hne hdig
  unfold bigIntOfString
  rw [trim_of_forall fun c hc => not_isSpace_of_isDigit (hdig c hc)]
  split
  · next h => exact absurd h hne
  · next ds h =>
    have := hdig '-' (by rw [h]; exact List.mem_cons_self)
    exact absurd this (by decide)
  · next ds h =>
    have := hdig '+' (by rw [h]; exact List.mem_cons_self)
    exact absurd this (by decide)
  · next c ds h =>
    have hc := hdig c (by rw [h]; simp)
    have hx : ∀ d : Char, d.isDigit = false → c ≠ d := by
      rintro d hd rfl
      simp [hd] at hc
    rw [if_neg (by simp only [not_or]; exact ⟨hx _ rfl, hx _ rfl⟩),
      if_neg (by simp only [not_or]; exact ⟨hx _ rfl, hx _ rfl⟩),
      if_neg (by simp only [not_or]; exact ⟨hx _ rfl, hx _ rfl⟩), ← h, hval]
  · exact hval

theorem bigIntOfString_neg {ds : List Char} (hne : ds ≠ []) (hd : ∀ c ∈ ds, c.isDigit = true) :
    bigIntOfString (String.ofList ('-' :: ds)) = some (-((Nat.ofDigitChars 10 ds 0 : ℕ) : ℤ)) := by
  have hspace : ∀ c ∈ '-' :: ds, isSpace c = false :=
    List.forall_mem_cons.2 ⟨rfl, fun c hc => not_isSpace_of_isDigit (hd c hc)⟩
  unfold bigIntOfString
  rw [trim_of_forall (by rwa [String.toList_ofList]), String.toList_ofList]
  simp only [parseRadix_digits hne hd, Option.map_some]

theorem bigIntOfString_repr (n : ℕ) : bigIntOfString n.repr = some (n : ℤ) := by
  have hne : n.repr.toList ≠ [] := by
    rw [Nat.toList_repr]
    exact Nat.toDigits_ne_nil
  rw [bigIntOfString_digits hne fun c hc => isDigit_of_mem_repr hc, Nat.toList_repr,
    Nat.ofDigitChars_ten_toDigits]

/-- A `bigint` read back from its text. -/
theorem bigIntOf_bigintText {n : ℤ} (hn : 0 ≤ n) :
    bigIntOf (some (.str (bigintText n))) = some n := by
  obtain ⟨k, rfl⟩ := Int.eq_ofNat_of_zero_le hn
  exact bigIntOfString_repr k

/-! ## Asset texts -/

/-- The part of a string before the first `c`, or all of it. -/
def beforeChar (s : String) (c : Char) : String := String.ofList (s.toList.takeWhile (· ≠ c))

/-- The part after the first `c` and before the next, empty without one. -/
def afterChar (s : String) (c : Char) : String :=
  beforeChar (dropStr s ((beforeChar s c).toList.length + 1)) c

/-- `vizToMilli`: `"189.027 VIZ"` is 189027. -/
def vizToMilli (amount : String) : Option ℤ := do
  let numeric := beforeChar (trim amount) ' '
  let intPart := beforeChar numeric '.'
  let frac := takeStr (afterChar numeric '.' ++ "000") 3
  let i ← bigIntOfString (if intPart = "" then "0" else intPart)
  let f ← bigIntOfString (if frac = "" then "0" else frac)
  return i * 1000 + f

/-- `milliToViz`: 189027 is `"189.027 VIZ"`. -/
def milliToViz (milli : ℤ) : String :=
  let v := milli.natAbs
  let frac := (v % 1000).repr
  let padded := String.ofList (List.replicate (3 - frac.toList.length) '0') ++ frac
  (if milli < 0 then "-" else "") ++ (v / 1000).repr ++ "." ++ padded ++ " VIZ"

example : vizToMilli "189.027 VIZ" = some 189027 := by decide

example : milliToViz 189027 = "189.027 VIZ" := by decide

/-! ## Actions off the wire -/

/-- The `WireAction` a request carries, each field whatever JSON value it was. -/
abbrev WireAction := JsonObject

/-- `actionFromWire`; `none` when `BigInt` throws. -/
def actionFromWire (o : WireAction) : Option CanonicalAction := do
  let amount ← bigIntOfString (jsString (o.get "amountMilliViz"))
  return {
    direction := match o.get "direction" with
      | some (.str s) => Wire.direction s
      | v => .other (jsString v)
    id := jsString (o.get "id")
    remoteChain := if jsTruthy (o.get "remoteChain")
      then some (Wire.remoteChain (jsString (o.get "remoteChain"))) else none
    recipient := jsString (o.get "recipient")
    amountMilliViz := amount
    digest := jsString (o.get "digest") }

end VizGateway
