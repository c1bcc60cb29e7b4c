import VizGateway.Lib.PrefixCode
import VizGateway.RemoteChains

/-!
# Building cells

A builder collects bits and references, and a cell has room for 1023 and four. Numbers, coins,
addresses and dictionaries are written as TL-B lays them out; a value outside its field throws.
-/

namespace VizGateway

open PrefixCode

/-- `n` in `w` bits, most significant first. -/
def natBits : ℕ → ℕ → List Bool
  | 0, _ => []
  | w + 1, n => n.testBit w :: natBits w n

@[ext] structure Builder where
  bits : List Bool
  refs : List Cell

namespace Builder

instance : One Builder := ⟨[], []⟩

instance : Mul Builder := ⟨fun a b => ⟨a.bits ++ b.bits, a.refs ++ b.refs⟩⟩

@[simp] theorem one_bits : (1 : Builder).bits = [] := rfl

@[simp] theorem one_refs : (1 : Builder).refs = [] := rfl

@[simp] theorem mul_bits (a b : Builder) : (a * b).bits = a.bits ++ b.bits := rfl

@[simp] theorem mul_refs (a b : Builder) : (a * b).refs = a.refs ++ b.refs := rfl

instance : Monoid Builder where
  mul_assoc a b c := by ext1 <;> simp
  one_mul a := by ext1 <;> simp
  mul_one a := by ext1 <;> simp

instance : IsLeftCancelMul Builder where
  mul_left_cancel a b c h := by
    exact Builder.ext (List.append_cancel_left (congrArg bits h))
      (List.append_cancel_left (congrArg refs h))

def ofBits (bits : List Bool) : Builder := ⟨bits, []⟩

def ofRef (c : Cell) : Builder := ⟨[], [c]⟩

@[simp] theorem ofBits_bits (l : List Bool) : (ofBits l).bits = l := rfl

@[simp] theorem ofBits_refs (l : List Bool) : (ofBits l).refs = [] := rfl

@[simp] theorem ofRef_bits (c : Cell) : (ofRef c).bits = [] := rfl

@[simp] theorem ofRef_refs (c : Cell) : (ofRef c).refs = [c] := rfl

/-- `endCell`. -/
def endCell (b : Builder) : Option Cell :=
  if b.bits.length ≤ 1023 ∧ b.refs.length ≤ 4 then some (.mk b.bits b.refs) else none

theorem endCell_inj {a b : Builder} {c : Cell} (ha : a.endCell = some c)
    (hb : b.endCell = some c) : a = b := by
  unfold endCell at ha hb
  split_ifs at ha hb
  obtain rfl := Option.some.inj ha
  have hmk := Option.some.inj hb
  rw [Cell.mk.injEq] at hmk
  exact Builder.ext hmk.1.symm hmk.2.symm

end Builder

/-- What a cell holds, as `asBuilder`. -/
def Cell.asBuilder (c : Cell) : Builder := ⟨c.bits, c.refs⟩

/-- `beginCell()`, stores in their order, `endCell()`. -/
def cellOf (parts : List (Option Builder)) : Option Cell := (concat parts).bind (·.endCell)

/-! ## Fields -/

section

open Builder

def storeBit (b : Bool) : Option Builder := some (ofBits [b])

def storeUint (value : ℤ) (bits : ℕ) : Option Builder :=
  if 0 ≤ value ∧ value < 2 ^ bits then some (ofBits (natBits bits value.toNat)) else none

/-- Two's complement. -/
def storeInt (value : ℤ) (bits : ℕ) : Option Builder :=
  if -2 ^ (bits - 1) ≤ value ∧ value < 2 ^ (bits - 1) then
    some (ofBits (natBits bits (value % 2 ^ bits).toNat))
  else none

/-- `VarUInteger 16`: how many bytes, then that many. -/
def storeCoins (amount : ℤ) : Option Builder :=
  let sizeBytes := (amount.toNat.size + 7) / 8
  concat [storeUint sizeBytes 4, storeUint amount (sizeBytes * 8)]

/-- Bytes of a fixed number. -/
def storeBuffer (bytes : ℕ) (bits : List Bool) : Option Builder :=
  if bits.length = bytes * 8 then some (ofBits bits) else none

/-- `addr_std$10` without anycast. -/
def storeAddress (address : TonAddress) : Option Builder :=
  concat [storeUint 2 2, storeUint 0 1, storeInt address.workchain 8, storeBuffer 32 address.hash]

/-- `addr_none$00`. -/
def storeNoAddress : Option Builder := storeUint 0 2

def storeRef (c : Cell) : Option Builder := some (ofRef c)

end

/-! ## Dictionaries -/

section

open Builder

variable {V : Type} (write : V → Option Builder)

/-- The label of an edge with at most `n` bits of key below, in its shortest form. -/
def writeLabel (n : ℕ) (label : List Bool) : Option Builder :=
  let lengthBits := n.size
  let short := 2 * label.length + 2
  let long := 2 + lengthBits + label.length
  let same := 3 + lengthBits
  if n < label.length then none
  else if label = List.replicate label.length (label.headD false) ∧ same < min short long then
    some (ofBits ([true, true, label.headD false] ++ natBits lengthBits label.length))
  else if long < short then
    some (ofBits ([true, false] ++ natBits lengthBits label.length ++ label))
  else some (ofBits (false :: List.replicate label.length true ++ false :: label))

/-- The entries whose next bit of key is `b`. -/
def branch (b : Bool) (entries : List (List Bool × V)) : List (List Bool × V) :=
  entries.filterMap fun e => match e.1 with
    | c :: key => if c = b then some (key, e.2) else none
    | [] => none

/-- The edge over entries with `m` more bits of key, `label` being what they share of `n`. -/
def writeEdge (n : ℕ) (label : List Bool) : ℕ → List (List Bool × V) → Option Builder
  | 0, [(_, v)] => concat [writeLabel n label, write v]
  | 0, _ => none
  | m + 1, entries =>
    let left := branch false entries
    let right := branch true entries
    if right = [] then writeEdge n (label ++ [false]) m left
    else if left = [] then writeEdge n (label ++ [true]) m right
    else
      concat [writeLabel n label, ((writeEdge m [] m left).bind endCell).map ofRef,
        ((writeEdge m [] m right).bind endCell).map ofRef]

/-- Values under their places as keys of eight bits. -/
def keyed (values : List V) : List (List Bool × V) :=
  values.zipIdx.map fun e => (natBits 8 e.2, e.1)

def storeDictDirect (values : List V) : Option Builder :=
  if values.length ≤ 256 then writeEdge write 8 [] 8 (keyed values) else none

def storeDict (values : List V) : Option Builder :=
  if values.isEmpty then storeBit false
  else concat [storeBit true, (cellOf [storeDictDirect write values]).map ofRef]

end

end VizGateway
