import VizGateway.Lib.LengthPrefix
import VizGateway.Lib.NumberText

/-!
# JSON texts

`JSON.stringify` and `JSON.parse` on the runtime's strings, which are sequences of UTF-16 code units
and may hold lone surrogates. The parser is a lexer and a machine with a stack, both of which read
their input once from the front. What is written is read back.
-/

inductive JsonValue
  | null
  | bool (b : Bool)
  | num (x : Binary64)
  | str (s : List UInt16)
  | arr (items : List JsonValue)
  | obj (props : List (List UInt16 × JsonValue))

namespace JsonText

open NumberText Utf16

/-- The code unit of an ASCII character. -/
def unit (c : Char) : UInt16 := .ofNat c.toNat

def ascii (s : String) : List UInt16 := s.toList.map unit

def char (u : UInt16) : Char := .ofNat u.toNat

/-! ## Writing -/

/-- The units with an escape of one letter. -/
def shortEscapes : List (UInt16 × Char) :=
  [(8, 'b'), (9, 't'), (10, 'n'), (12, 'f'), (13, 'r'), (34, '"'), (92, '\\')]

def hexUnit (d : ℕ) : UInt16 := unit (Nat.digitChar d)

def unicodeEscape (u : UInt16) : List UInt16 :=
  unit '\\' :: unit 'u' :: [u.toNat / 4096, u.toNat / 256 % 16, u.toNat / 16 % 16,
    u.toNat % 16].map hexUnit

/-- A unit that is not half of a pair. -/
def escapeUnit (u : UInt16) : List UInt16 :=
  match shortEscapes.lookup u with
  | some c => [unit '\\', unit c]
  | none => if u < 32 ∨ isHigh u = true ∨ isLow u = true then unicodeEscape u else [u]

def escapeUnits : List UInt16 → List UInt16
  | [] => []
  | [u] => escapeUnit u
  | u :: v :: us =>
    if isHigh u = true ∧ isLow v = true then u :: v :: escapeUnits us
    else escapeUnit u ++ escapeUnits (v :: us)

def quote (s : List UInt16) : List UInt16 := unit '"' :: (escapeUnits s ++ [unit '"'])

/-- `String(x)`, null for a number that is none. -/
def numberUnits (x : Binary64) : List UInt16 :=
  if x.isFinite then (numberText x).map unit else ascii "null"

mutual

/-- `JSON.stringify(v)`. -/
def stringify : JsonValue → List UInt16
  | .null => ascii "null"
  | .bool b => ascii (if b then "true" else "false")
  | .num x => numberUnits x
  | .str s => quote s
  | .arr [] => [unit '[', unit ']']
  | .arr (v :: items) => unit '[' :: (stringify v ++ moreItems items)
  | .obj [] => [unit '{', unit '}']
  | .obj ((key, v) :: props) =>
    unit '{' :: (quote key ++ unit ':' :: (stringify v ++ moreProps props))

def moreItems : List JsonValue → List UInt16
  | [] => [unit ']']
  | v :: items => unit ',' :: (stringify v ++ moreItems items)

def moreProps : List (List UInt16 × JsonValue) → List UInt16
  | [] => [unit '}']
  | (key, v) :: props =>
    unit ',' :: (quote key ++ unit ':' :: (stringify v ++ moreProps props))

end

/-! ## Tokens -/

/-- A bracket or separator, a string, or a value without structure. -/
inductive Token
  | punct (c : Char)
  | str (s : List UInt16)
  | lit (v : JsonValue)

inductive LexState
  | start
  | bare (units : List UInt16)
  | str (units : List UInt16)
  | escape (units : List UInt16)
  | hex (units : List UInt16) (digits : List ℕ)

/-- What words and numbers consist of. -/
def isBare (u : UInt16) : Bool := (char u).isAlphanum || isNumberChar (char u)

def literal (units : List UInt16) : Option Token :=
  if units = ascii "null" then some (.lit .null)
  else if units = ascii "true" then some (.lit (.bool true))
  else if units = ascii "false" then some (.lit (.bool false))
  else (readNumber (units.map char)).map fun x => .lit (.num x)

def lexStart (u : UInt16) : Option (List Token × LexState) :=
  if u = unit ' ' ∨ u = unit '\t' ∨ u = unit '\n' ∨ u = unit '\r' then some ([], .start)
  else if u = unit '"' then some ([], .str [])
  else if isBare u then some ([], .bare [u])
  else (['[', ']', '{', '}', ',', ':'].find? (unit · = u)).map fun c => ([.punct c], .start)

/-- The letter of an escape. -/
def unescape (u : UInt16) : Option UInt16 :=
  (((47, '/') :: shortEscapes).find? (unit ·.2 = u)).map (·.1)

def hexValue (u : UInt16) : Option ℕ :=
  let c := char u
  if c.isDigit then some (c.toNat - '0'.toNat)
  else if 'a' ≤ c ∧ c ≤ 'f' then some (c.toNat - 'a'.toNat + 10)
  else if 'A' ≤ c ∧ c ≤ 'F' then some (c.toNat - 'A'.toNat + 10)
  else none

def lexStep : LexState → UInt16 → Option (List Token × LexState)
  | .start, u => lexStart u
  | .bare units, u =>
    if isBare u then some ([], .bare (units ++ [u]))
    else do
      let t ← literal units
      let (ts, st) ← lexStart u
      return (t :: ts, st)
  | .str units, u =>
    if u = unit '"' then some ([.str units], .start)
    else if u = unit '\\' then some ([], .escape units)
    else if u < 32 then none
    else some ([], .str (units ++ [u]))
  | .escape units, u =>
    if u = unit 'u' then some ([], .hex units [])
    else (unescape u).map fun v => ([], .str (units ++ [v]))
  | .hex units digits, u =>
    (hexValue u).map fun d =>
      match digits with
      | [a, b, c] => ([], .str (units ++ [.ofNat (4096 * a + 256 * b + 16 * c + d)]))
      | _ => ([], .hex units (digits ++ [d]))

/-- The tokens of the rest of a text. -/
def tokens : LexState → List UInt16 → Option (List Token)
  | .start, [] => some []
  | .bare units, [] => (literal units).map ([·])
  | _, [] => none
  | st, u :: us => (lexStep st u).bind fun x => (tokens x.2 us).map (x.1 ++ ·)

/-! ## The machine -/

/-- What an unfinished array or object has so far; the object's key is the one whose value is
due. -/
inductive Frame
  | item (before : List JsonValue)
  | prop (before : List (List UInt16 × JsonValue)) (key : List UInt16)

inductive ParseState
  | value (stack : List Frame)
  | firstItem (stack : List Frame)
  | firstKey (stack : List Frame)
  | key (stack : List Frame) (before : List (List UInt16 × JsonValue))
  | colon (stack : List Frame) (before : List (List UInt16 × JsonValue)) (key : List UInt16)
  | after (stack : List Frame) (v : JsonValue)

/-- A key that is there already keeps its place and takes the new value. -/
def assign (props : List (List UInt16 × JsonValue)) (key : List UInt16) (v : JsonValue) :
    List (List UInt16 × JsonValue) :=
  if key ∈ props.map (·.1) then props.map fun p => if p.1 = key then (key, v) else p
  else props ++ [(key, v)]

def startValue (stack : List Frame) : Token → Option ParseState
  | .lit v => some (.after stack v)
  | .str s => some (.after stack (.str s))
  | .punct '[' => some (.firstItem stack)
  | .punct '{' => some (.firstKey stack)
  | .punct _ => none

def parseStep : ParseState → Token → Option ParseState
  | .value stack, t => startValue stack t
  | .firstItem stack, .punct ']' => some (.after stack (.arr []))
  | .firstItem stack, t => startValue (.item [] :: stack) t
  | .firstKey stack, .punct '}' => some (.after stack (.obj []))
  | .firstKey stack, .str key => some (.colon stack [] key)
  | .key stack before, .str key => some (.colon stack before key)
  | .colon stack before key, .punct ':' => some (.value (.prop before key :: stack))
  | .after (.item before :: stack) v, .punct ',' => some (.value (.item (before ++ [v]) :: stack))
  | .after (.item before :: stack) v, .punct ']' => some (.after stack (.arr (before ++ [v])))
  | .after (.prop before key :: stack) v, .punct ',' => some (.key stack (assign before key v))
  | .after (.prop before key :: stack) v, .punct '}' =>
    some (.after stack (.obj (assign before key v)))
  | _, _ => none

def ParseState.finish : ParseState → Option JsonValue
  | .after [] v => some v
  | _ => none

/-- `JSON.parse(text)`, `none` for a `SyntaxError`. -/
def parse (text : List UInt16) : Option JsonValue := do
  let ts ← tokens .start text
  let st ← ts.foldlM parseStep (.value [])
  st.finish

/-! ## The lexer on what is written -/

section Lexing

variable {p q : LexState} {u : UInt16} {us rest acc : List UInt16} {t : Token}

theorem tokens_cons (p : LexState) (u : UInt16) (us : List UInt16) :
    tokens p (u :: us) = (lexStep p u).bind fun x => (tokens x.2 us).map (x.1 ++ ·) := by
  cases p <;> rfl

theorem tokens_silent (h : lexStep p u = some ([], q)) : tokens p (u :: us) = tokens q us := by
  rw [tokens_cons, h]
  simp

theorem tokens_emit (h : lexStep p u = some ([t], q)) :
    tokens p (u :: us) = (tokens q us).map (t :: ·) := by
  rw [tokens_cons, h]
  simp

theorem char_unit {c : Char} (h : c.toNat < 0x10000) : char (unit c) = c := by
  rw [char, unit, toNat_ofNat_of_lt h, Char.ofNat_toNat]

/-! ### Strings -/

theorem hexValue_hexUnit : ∀ d < 16, hexValue (hexUnit d) = some d := by decide

theorem tokens_hex {d : ℕ} {ds : List ℕ} (hd : d < 16) (hds : ds.length ≠ 3) :
    tokens (.hex acc ds) (hexUnit d :: us) = tokens (.hex acc (ds ++ [d])) us := by
  refine tokens_silent ?_
  rw [lexStep, hexValue_hexUnit d hd, Option.map_some]
  split
  · exact absurd rfl hds
  · rfl

theorem tokens_unicodeEscape (u : UInt16) :
    tokens (.str acc) (unicodeEscape u ++ us) = tokens (.str (acc ++ [u])) us := by
  have hu : u.toNat < 65536 := u.toNat_lt
  have hsum : 4096 * (u.toNat / 4096) + 256 * (u.toNat / 256 % 16) + 16 * (u.toNat / 16 % 16) +
      u.toNat % 16 = u.toNat := by omega
  simp only [unicodeEscape, List.map_cons, List.map_nil, List.cons_append, List.nil_append]
  rw [tokens_silent (q := .escape acc) rfl, tokens_silent (q := .hex acc []) rfl,
    tokens_hex (by omega) (by simp), tokens_hex (by omega) (by simp), tokens_hex (by omega) (by simp)]
  refine tokens_silent ?_
  rw [lexStep, hexValue_hexUnit _ (by omega), Option.map_some]
  simp only [List.nil_append, List.cons_append, hsum, UInt16.ofNat_toNat]

theorem tokens_plain (hquote : u ≠ unit '"') (hback : u ≠ unit '\\') (hctrl : ¬ u < 32) :
    tokens (.str acc) (u :: us) = tokens (.str (acc ++ [u])) us := by
  refine tokens_silent ?_
  rw [lexStep, if_neg hquote, if_neg hback, if_neg hctrl]

theorem tokens_escapeUnit (u : UInt16) :
    tokens (.str acc) (escapeUnit u ++ us) = tokens (.str (acc ++ [u])) us := by
  unfold escapeUnit
  cases hlookup : shortEscapes.lookup u with
  | some c =>
    have hmem : (u, c) ∈ shortEscapes := by
      obtain ⟨l₁, l₂, hl, -⟩ := List.lookup_eq_some_iff.1 hlookup
      rw [hl]
      simp
    simp only [shortEscapes, List.mem_cons, Prod.mk.injEq, List.not_mem_nil, or_false] at hmem
    rw [List.cons_append, List.cons_append, List.nil_append,
      tokens_silent (q := .escape acc) rfl]
    rcases hmem with ⟨rfl, rfl⟩ | ⟨rfl, rfl⟩ | ⟨rfl, rfl⟩ | ⟨rfl, rfl⟩ | ⟨rfl, rfl⟩ | ⟨rfl, rfl⟩ |
      ⟨rfl, rfl⟩ <;> exact tokens_silent rfl
  | none =>
    have hne : ∀ p ∈ shortEscapes, u ≠ p.1 := fun p hp => by
      simpa using List.lookup_eq_none_iff.1 hlookup p hp
    simp only []
    split_ifs with h
    · exact tokens_unicodeEscape u
    · simp only [not_or] at h
      exact tokens_plain (hne (34, '"') (by decide)) (hne (92, '\\') (by decide)) h.1

theorem tokens_surrogate (h : isHigh u = true ∨ isLow u = true) :
    tokens (.str acc) (u :: us) = tokens (.str (acc ++ [u])) us := by
  have hu : 0xd800 ≤ u.toNat := by
    simp only [isHigh, isLow, Bool.and_eq_true, decide_eq_true_eq] at h
    omega
  refine tokens_plain ?_ ?_ ?_
  · rintro rfl
    exact absurd hu (by decide)
  · rintro rfl
    exact absurd hu (by decide)
  · rw [UInt16.lt_iff_toNat_lt]
    show ¬ u.toNat < 32
    omega

theorem tokens_escapeUnits (s acc rest : List UInt16) :
    tokens (.str acc) (escapeUnits s ++ rest) = tokens (.str (acc ++ s)) rest := by
  induction s using escapeUnits.induct generalizing acc with
  | case1 => simp [escapeUnits]
  | case2 u => rw [escapeUnits, tokens_escapeUnit]
  | case3 u v us h ih =>
    rw [escapeUnits, if_pos h, List.cons_append, List.cons_append, tokens_surrogate (Or.inl h.1),
      tokens_surrogate (Or.inr h.2), ih]
    simp
  | case4 u v us h ih =>
    rw [escapeUnits, if_neg h, List.append_assoc, tokens_escapeUnit, ih]
    simp

theorem tokens_quote (s rest : List UInt16) :
    tokens .start (quote s ++ rest) = (tokens .start rest).map (.str s :: ·) := by
  rw [quote, List.cons_append, tokens_silent (q := .str []) rfl, List.append_assoc,
    tokens_escapeUnits, List.singleton_append]
  exact tokens_emit (by simp [lexStep])

/-! ### Words and numbers -/

/-- The text does not go on with what a word or number consists of. -/
def Boundary (rest : List UInt16) : Prop := ∀ u, rest.head? = some u → isBare u = false

theorem lexStart_of_isBare (h : isBare u = true) : lexStart u = some ([], .bare [u]) := by
  have hne : ∀ c : Char, isBare (unit c) = false → u ≠ unit c := by
    rintro c hc rfl
    rw [h] at hc
    cases hc
  unfold lexStart
  rw [if_neg (by simp [hne ' ' rfl, hne '\t' rfl, hne '\n' rfl, hne '\r' rfl]),
    if_neg (hne '"' rfl), if_pos h]

theorem tokens_bare {ws : List UInt16} (hws : ∀ u ∈ ws, isBare u = true)
    (hlit : literal (acc ++ ws) = some t) (hrest : Boundary rest) :
    tokens (.bare acc) (ws ++ rest) = (tokens .start rest).map (t :: ·) := by
  induction ws generalizing acc with
  | nil =>
    rw [List.append_nil] at hlit
    rw [List.nil_append]
    rcases rest with _ | ⟨u, us⟩
    · simp [tokens, hlit]
    · have hu : isBare u = false := hrest u rfl
      rw [tokens_cons, tokens_cons, lexStep, lexStep, if_neg (by simp [hu]), hlit]
      cases lexStart u with
      | none => rfl
      | some x => simp [Option.map_map, Function.comp_def]
  | cons w ws ih =>
    obtain ⟨hw, hws⟩ := List.forall_mem_cons.1 hws
    rw [List.cons_append, tokens_silent (q := .bare (acc ++ [w])) (by rw [lexStep, if_pos hw])]
    exact ih hws (by rwa [List.append_assoc, List.singleton_append])

theorem tokens_literal {ws : List UInt16} (hne : ws ≠ []) (hws : ∀ u ∈ ws, isBare u = true)
    (hlit : literal ws = some t) (hrest : Boundary rest) :
    tokens .start (ws ++ rest) = (tokens .start rest).map (t :: ·) := by
  obtain ⟨w, ws, rfl⟩ := List.exists_cons_of_ne_nil hne
  obtain ⟨hw, hws⟩ := List.forall_mem_cons.1 hws
  rw [List.cons_append, tokens_silent (p := .start) (lexStart_of_isBare hw)]
  exact tokens_bare hws hlit hrest

theorem isBare_unit {c : Char} (h : isNumberChar c = true) : isBare (unit c) = true := by
  have hc := toNat_of_isNumberChar h
  rw [isBare, char_unit (by omega), h, Bool.or_true]

theorem literal_numberText (x : ℚ) (h : Binary64.Representable x) :
    literal ((numberText (.finite x h)).map unit) = some (.lit (.num (.finite x h))) := by
  have hread := readNumber_numberText x h
  obtain ⟨c, cs, htext, hc, hcs⟩ := numberText_cons x h
  rw [htext] at hread ⊢
  have hnumber : isNumberChar c = true := by
    rcases hc with hc | rfl
    · exact isNumberChar_of_isDigit hc
    · rfl
  have hnumbers : ∀ d ∈ c :: cs, isNumberChar d = true := List.forall_mem_cons.2 ⟨hnumber, hcs⟩
  have hchar : ∀ d ∈ c :: cs, char (unit d) = d := fun d hd => char_unit (by
    have := toNat_of_isNumberChar (hnumbers d hd)
    omega)
  have hword : ∀ (w : String) (l : Char) (ls : List Char), w.toList = l :: ls →
      l.isDigit = false → l ≠ '-' → l.toNat < 0x10000 → (c :: cs).map unit ≠ ascii w := by
    intro w l ls hw hdigit hsign hl heq
    rw [ascii, hw, List.map_cons, List.map_cons, List.cons.injEq] at heq
    have hcl : c = l := by
      rw [← hchar c List.mem_cons_self, heq.1, char_unit hl]
    rw [hcl] at hc
    rcases hc with hc | hc
    · rw [hdigit] at hc
      cases hc
    · exact hsign hc
  have hback : ((c :: cs).map unit).map char = c :: cs := by
    rw [List.map_map]
    exact (List.map_congr_left hchar).trans (List.map_id _)
  unfold literal
  rw [if_neg (hword "null" 'n' _ rfl rfl (by decide) (by decide)),
    if_neg (hword "true" 't' _ rfl rfl (by decide) (by decide)),
    if_neg (hword "false" 'f' _ rfl rfl (by decide) (by decide)), hback, hread, Option.map_some]

theorem tokens_numberUnits {x : Binary64} (hx : x.isFinite = true) (hrest : Boundary rest) :
    tokens .start (numberUnits x ++ rest) = (tokens .start rest).map (.lit (.num x) :: ·) := by
  rw [numberUnits, if_pos hx]
  cases x with
  | finite x h =>
    obtain ⟨c, cs, htext, hc, hcs⟩ := numberText_cons x h
    refine tokens_literal ?_ ?_ (literal_numberText x h) hrest
    · simp [htext]
    · rw [htext]
      intro u hu
      obtain ⟨d, hd, rfl⟩ := List.mem_map.1 hu
      rcases List.mem_cons.1 hd with rfl | hd
      · rcases hc with hc | rfl
        · exact isBare_unit (isNumberChar_of_isDigit hc)
        · rfl
      · exact isBare_unit (hcs d hd)
  | nan => cases hx
  | infinite negative => cases hx

theorem tokens_punct {c : Char} (h : c ∈ ['[', ']', '{', '}', ',', ':']) (us : List UInt16) :
    tokens .start (unit c :: us) = (tokens .start us).map (.punct c :: ·) := by
  simp only [List.mem_cons, List.not_mem_nil, or_false] at h
  rcases h with rfl | rfl | rfl | rfl | rfl | rfl <;> exact tokens_emit rfl

end Lexing

/-! ## What is written is read -/

mutual

/-- No number is NaN or infinite, and no key comes twice. -/
def Proper : JsonValue → Prop
  | .num x => x.isFinite = true
  | .arr items => ProperItems items
  | .obj props => (props.map (·.1)).Nodup ∧ ProperProps props
  | _ => True

def ProperItems : List JsonValue → Prop
  | [] => True
  | v :: items => Proper v ∧ ProperItems items

def ProperProps : List (List UInt16 × JsonValue) → Prop
  | [] => True
  | (_, v) :: props => Proper v ∧ ProperProps props

end

mutual

/-- The tokens of what is written for `v`. -/
def tokensOf : JsonValue → List Token
  | .str s => [.str s]
  | .arr [] => [.punct '[', .punct ']']
  | .arr (v :: items) => .punct '[' :: (tokensOf v ++ moreItemTokens items)
  | .obj [] => [.punct '{', .punct '}']
  | .obj ((key, v) :: props) =>
    .punct '{' :: .str key :: .punct ':' :: (tokensOf v ++ morePropTokens props)
  | v => [.lit v]

def moreItemTokens : List JsonValue → List Token
  | [] => [.punct ']']
  | v :: items => .punct ',' :: (tokensOf v ++ moreItemTokens items)

def morePropTokens : List (List UInt16 × JsonValue) → List Token
  | [] => [.punct '}']
  | (key, v) :: props =>
    .punct ',' :: .str key :: .punct ':' :: (tokensOf v ++ morePropTokens props)

end


theorem boundary_unit {c : Char} (h : isBare (unit c) = false) (us : List UInt16) :
    Boundary (unit c :: us) := by
  intro u hu
  obtain rfl : unit c = u := by simpa using hu
  exact h

theorem boundary_moreItems (items : List JsonValue) (rest : List UInt16) :
    Boundary (moreItems items ++ rest) := by
  cases items <;> rw [moreItems] <;> exact boundary_unit (by decide) _

theorem boundary_moreProps (props : List (List UInt16 × JsonValue)) (rest : List UInt16) :
    Boundary (moreProps props ++ rest) := by
  rcases props with _ | ⟨⟨key, v⟩, props⟩ <;> rw [moreProps] <;> exact boundary_unit (by decide) _

mutual

theorem tokens_stringify : ∀ v, Proper v → ∀ rest, Boundary rest →
    tokens .start (stringify v ++ rest) = (tokens .start rest).map (tokensOf v ++ ·)
  | .null, _, rest, hrest => by
    rw [stringify, tokensOf.eq_def]
    exact tokens_literal (by decide) (List.all_eq_true.1 (by decide)) (if_pos rfl) hrest
  | .bool true, _, rest, hrest => by
    rw [stringify]
    exact tokens_literal (by decide) (List.all_eq_true.1 (by decide)) rfl hrest
  | .bool false, _, rest, hrest => by
    rw [stringify]
    exact tokens_literal (by decide) (List.all_eq_true.1 (by decide)) rfl hrest
  | .num x, hx, rest, hrest => by
    rw [stringify]
    exact tokens_numberUnits hx hrest
  | .str s, _, rest, _ => by
    rw [stringify, tokens_quote, tokensOf]
    rfl
  | .arr [], _, rest, _ => by
    simp [stringify, tokensOf, tokens_punct, Option.map_map, Function.comp_def]
  | .arr (v :: items), ⟨hv, hitems⟩, rest, _ => by
    rw [stringify, tokensOf, List.cons_append, List.append_assoc, tokens_punct (by simp),
      tokens_stringify v hv _ (boundary_moreItems items rest), tokens_moreItems items hitems rest]
    simp [Option.map_map, Function.comp_def]
  | .obj [], _, rest, _ => by
    simp [stringify, tokensOf, tokens_punct, Option.map_map, Function.comp_def]
  | .obj ((key, v) :: props), ⟨_, hv, hprops⟩, rest, _ => by
    rw [stringify, tokensOf, List.cons_append, List.append_assoc, List.cons_append,
      List.append_assoc, tokens_punct (by simp), tokens_quote, tokens_punct (by simp),
      tokens_stringify v hv _ (boundary_moreProps props rest), tokens_moreProps props hprops rest]
    simp [Option.map_map, Function.comp_def]

theorem tokens_moreItems : ∀ items, ProperItems items → ∀ rest,
    tokens .start (moreItems items ++ rest) = (tokens .start rest).map (moreItemTokens items ++ ·)
  | [], _, rest => by
    rw [moreItems, moreItemTokens, List.singleton_append, tokens_punct (by simp)]
    rfl
  | v :: items, ⟨hv, hitems⟩, rest => by
    rw [moreItems, moreItemTokens, List.cons_append, List.append_assoc, tokens_punct (by simp),
      tokens_stringify v hv _ (boundary_moreItems items rest), tokens_moreItems items hitems rest]
    simp [Option.map_map, Function.comp_def]

theorem tokens_moreProps : ∀ props, ProperProps props → ∀ rest,
    tokens .start (moreProps props ++ rest) = (tokens .start rest).map (morePropTokens props ++ ·)
  | [], _, rest => by
    rw [moreProps, morePropTokens, List.singleton_append, tokens_punct (by simp)]
    rfl
  | (key, v) :: props, ⟨hv, hprops⟩, rest => by
    rw [moreProps, morePropTokens, List.cons_append, List.append_assoc, List.cons_append,
      List.append_assoc, tokens_punct (by simp), tokens_quote, tokens_punct (by simp),
      tokens_stringify v hv _ (boundary_moreProps props rest), tokens_moreProps props hprops rest]
    simp [Option.map_map, Function.comp_def]

end

/-! ### The machine -/

theorem assign_of_notMem {props : List (List UInt16 × JsonValue)} {key : List UInt16}
    (h : key ∉ props.map (·.1)) (v : JsonValue) : assign props key v = props ++ [(key, v)] :=
  if_neg h

/-- A value's tokens do not start with a closing bracket. -/
theorem parseStep_firstItem (v : JsonValue) (stack : List Frame) (ts : List Token) :
    (tokensOf v ++ ts).foldlM parseStep (.firstItem stack) =
      (tokensOf v ++ ts).foldlM parseStep (.value (.item [] :: stack)) := by
  rcases v with _ | _ | _ | _ | ⟨_ | ⟨_, _⟩⟩ | ⟨_ | ⟨⟨_, _⟩, _⟩⟩ <;> rw [tokensOf.eq_def] <;> rfl

mutual

theorem foldlM_tokensOf : ∀ v, Proper v → ∀ stack ts,
    (tokensOf v ++ ts).foldlM parseStep (.value stack) = ts.foldlM parseStep (.after stack v)
  | .null, _, _, _ => rfl
  | .bool _, _, _, _ => rfl
  | .num _, _, _, _ => rfl
  | .str _, _, _, _ => rfl
  | .arr [], _, _, _ => rfl
  | .arr (v :: items), ⟨hv, hitems⟩, stack, ts => by
    rw [tokensOf, List.cons_append, List.append_assoc]
    show (tokensOf v ++ (moreItemTokens items ++ ts)).foldlM parseStep (.firstItem stack) = _
    rw [parseStep_firstItem, foldlM_tokensOf v hv, foldlM_moreItemTokens items hitems]
    rfl
  | .obj [], _, _, _ => rfl
  | .obj ((key, v) :: props), ⟨hkeys, hv, hprops⟩, stack, ts => by
    rw [tokensOf, List.cons_append, List.cons_append, List.cons_append, List.append_assoc]
    show (tokensOf v ++ (morePropTokens props ++ ts)).foldlM parseStep
      (.value (.prop [] key :: stack)) = _
    rw [foldlM_tokensOf v hv, foldlM_morePropTokens props hprops [] key v stack ts (by simpa using hkeys)]
    rfl

theorem foldlM_moreItemTokens : ∀ items, ProperItems items → ∀ before v stack ts,
    (moreItemTokens items ++ ts).foldlM parseStep (.after (.item before :: stack) v) =
      ts.foldlM parseStep (.after stack (.arr (before ++ v :: items)))
  | [], _, _, _, _, _ => rfl
  | w :: items, ⟨hw, hitems⟩, before, v, stack, ts => by
    rw [moreItemTokens, List.cons_append, List.append_assoc]
    show (tokensOf w ++ (moreItemTokens items ++ ts)).foldlM parseStep
      (.value (.item (before ++ [v]) :: stack)) = _
    rw [foldlM_tokensOf w hw, foldlM_moreItemTokens items hitems, List.append_assoc,
      List.singleton_append]

theorem foldlM_morePropTokens : ∀ props, ProperProps props → ∀ before key v stack ts,
    ((before ++ (key, v) :: props).map (·.1)).Nodup →
    (morePropTokens props ++ ts).foldlM parseStep (.after (.prop before key :: stack) v) =
      ts.foldlM parseStep (.after stack (.obj (before ++ (key, v) :: props)))
  | [], _, before, key, v, stack, ts, hkeys => by
    have hnew : key ∉ before.map (·.1) := by
      rw [List.map_append, List.map_cons, List.nodup_append] at hkeys
      exact fun h => hkeys.2.2 key h key (by simp) rfl
    show ts.foldlM parseStep (.after stack (.obj (assign before key v))) = _
    rw [assign_of_notMem hnew]
  | (key', w) :: props, ⟨hw, hprops⟩, before, key, v, stack, ts, hkeys => by
    have hnew : key ∉ before.map (·.1) := by
      rw [List.map_append, List.map_cons, List.nodup_append] at hkeys
      exact fun h => hkeys.2.2 key h key (by simp) rfl
    rw [morePropTokens, List.cons_append, List.cons_append, List.cons_append, List.append_assoc]
    show (tokensOf w ++ (morePropTokens props ++ ts)).foldlM parseStep
      (.value (.prop (assign before key v) key' :: stack)) = _
    rw [foldlM_tokensOf w hw, assign_of_notMem hnew,
      foldlM_morePropTokens props hprops _ key' w stack ts (by simpa using hkeys), List.append_assoc,
      List.singleton_append]

end

/-- A value without NaN, infinities and repeated keys is read back from its text. -/
theorem parse_stringify {v : JsonValue} (h : Proper v) : parse (stringify v) = some v := by
  have htokens := tokens_stringify v h [] (by simp [Boundary])
  have hparse := foldlM_tokensOf v h [] []
  simp only [List.append_nil, tokens, Option.map_some] at htokens hparse
  rw [parse, htokens]
  simp only [Option.bind_eq_bind, Option.bind_some, hparse]
  rfl

end JsonText
