import VizGateway.Action
import VizGateway.Lib.LengthPrefix

/-!
# The canonical string is decodable

The runtime's strings are UTF-16 code units, and a text a user chose may hold any of them, a lone
surrogate included. On code units the canonical string is the length-prefixed encoding of six
fields, which determines them (`LengthCode.encode_injective`); the strings of the model are those
without lone surrogates, and their canonical strings have the units the runtime's have
(`units_canonicalString`).
-/

namespace VizGateway

open Utf16

/-- The encoding's punctuation, over characters. -/
def charCode : LengthCode Char := .text '=' '|'

/-- The encoding's punctuation, over code units. -/
def unitCode : LengthCode UInt16 := .utf16 61 124

/-- The code units of a string. -/
def unitText (s : String) : List UInt16 := units s.toList

theorem unitText_injective : Function.Injective unitText :=
  fun _ _ h => String.toList_inj.1 (units_injective h)

/-- A source event's canonical fields, with the texts it was built from as code units. -/
inductive SourceUnits
  | deposit (src : List UInt16) (chain : RemoteChainId) (recipient : List UInt16) (amount : ℤ)
  | burn (chain : RemoteChainId) (src recipient : List UInt16) (amount : ℤ)
  deriving DecidableEq

/-- The field array of `canonicalPegIn` or `canonicalPegOut`. -/
def SourceUnits.fields : SourceUnits → List (List UInt16 × List UInt16)
  | .deposit src chain recipient amount =>
    [(unitText "v", unitText "1"), (unitText "dir", unitText "PEG_IN"), (unitText "src", src),
      (unitText "chain", unitText chain.toString), (unitText "recipient", recipient),
      (unitText "amount_milli_viz", unitText (bigintText amount))]
  | .burn chain src recipient amount =>
    [(unitText "v", unitText "1"), (unitText "dir", unitText "PEG_OUT"),
      (unitText "chain", unitText chain.toString), (unitText "src", src),
      (unitText "recipient", recipient),
      (unitText "amount_milli_viz", unitText (bigintText amount))]

/-- The canonical string as the runtime holds it. -/
def SourceUnits.body (s : SourceUnits) : List UInt16 := unitCode.encode s.fields

/-- The canonical string of a deposit or of a burn. -/
def sourceBody : VizDeposit ⊕ RemoteBurn → String := Sum.elim pegInBody pegOutBody

/-- The action a deposit or a burn determines. -/
def sourceAction (digestOf : String → String) : VizDeposit ⊕ RemoteBurn → CanonicalAction :=
  Sum.elim (canonicalPegIn digestOf) (canonicalPegOut digestOf)

def sourceUnits : VizDeposit ⊕ RemoteBurn → SourceUnits
  | .inl d => .deposit (unitText d.id) d.remoteChain (unitText d.remoteDestination) d.amountMilliViz
  | .inr b => .burn b.chain (unitText b.sourceId) (unitText b.homeDestination) b.amountMilliViz

/-! ## Fields -/

theorem RemoteChainId.toString_injective : Function.Injective RemoteChainId.toString := by
  rintro (_ | _) (_ | _) h
  · rfl
  · exact absurd h (by decide)
  · exact absurd h (by decide)
  · rfl

theorem bigintText_injective : Function.Injective bigintText := by
  have hne : ∀ m n : ℕ, m.repr ≠ "-" ++ n.repr := fun m n h => by
    have hm : '-' ∉ m.repr.toList := Text.notMem_repr (by decide) m
    rw [h] at hm
    simp at hm
  rintro (m | m) (n | n) h
  · exact congrArg Int.ofNat (Text.repr_injective h)
  · exact absurd h (hne m (n + 1))
  · exact absurd h.symm (hne n (m + 1))
  · have := Text.repr_injective (Text.append_left_cancel (s := "-") h)
    rw [Nat.succ_injective this]

theorem SourceUnits.fields_injective : Function.Injective SourceUnits.fields := by
  have htext : ∀ {s t : String}, unitText s = unitText t → s = t := fun h => unitText_injective h
  rintro (⟨src, chain, rec, amount⟩ | ⟨chain, src, rec, amount⟩)
    (⟨src', chain', rec', amount'⟩ | ⟨chain', src', rec', amount'⟩) h <;>
    simp only [SourceUnits.fields, List.cons.injEq, Prod.mk.injEq, true_and, and_true] at h
  · obtain ⟨rfl, hchain, rfl, hamount⟩ := h
    rw [RemoteChainId.toString_injective (htext hchain), bigintText_injective (htext hamount)]
  · exact absurd (htext h.1) (by decide)
  · exact absurd (htext h.1) (by decide)
  · obtain ⟨hchain, rfl, rfl, hamount⟩ := h
    rw [RemoteChainId.toString_injective (htext hchain), bigintText_injective (htext hamount)]

/-! ## The strings of the model -/

theorem toList_canonicalString (fields : List (String × String)) :
    (canonicalString fields).toList =
      charCode.encode (fields.map fun f => (f.1.toList, f.2.toList)) := by
  have hfield : ∀ f : String × String,
      (canonicalField f).toList = charCode.field (f.1.toList, f.2.toList) := fun f => by
    simp [canonicalField, LengthCode.field, LengthCode.tag, charCode, LengthCode.text]
  unfold canonicalString LengthCode.encode
  rw [String.toList_intercalate, List.map_map, List.map_map]
  congr 1
  exact List.map_congr_left fun f _ => hfield f

/-- The canonical string of the model has the units of the runtime's. -/
theorem units_canonicalString (fields : List (String × String)) :
    unitText (canonicalString fields) =
      unitCode.encode (fields.map fun f => (unitText f.1, unitText f.2)) := by
  unfold unitText
  rw [toList_canonicalString, charCode.map_encode (D := unitCode) units_append
    byteLength_units (fun _ => rfl) (by decide) (by decide) (by decide), List.map_map]
  rfl

theorem unitText_sourceBody (x : VizDeposit ⊕ RemoteBurn) :
    unitText (sourceBody x) = (sourceUnits x).body := by
  rcases x with d | b
  · simp only [sourceBody, Sum.elim_inl, pegInBody, units_canonicalString, sourceUnits,
      SourceUnits.body, SourceUnits.fields, List.map_cons, List.map_nil]
  · simp only [sourceBody, Sum.elim_inr, pegOutBody, units_canonicalString, sourceUnits,
      SourceUnits.body, SourceUnits.fields, List.map_cons, List.map_nil]

theorem sourceUnits_inj (digestOf : String → String) {x y : VizDeposit ⊕ RemoteBurn} :
    sourceUnits x = sourceUnits y ↔
      (sourceAction digestOf x).direction = (sourceAction digestOf y).direction ∧
      (sourceAction digestOf x).id = (sourceAction digestOf y).id ∧
      (sourceAction digestOf x).remoteChain = (sourceAction digestOf y).remoteChain ∧
      (sourceAction digestOf x).recipient = (sourceAction digestOf y).recipient ∧
      (sourceAction digestOf x).amountMilliViz = (sourceAction digestOf y).amountMilliViz := by
  rcases x with d | b <;> rcases y with e | c <;>
    simp [sourceUnits, sourceAction, canonicalPegIn, canonicalPegOut, unitText_injective.eq_iff]
  tauto

/-- Two source events have one canonical string exactly when they agree in direction, source id,
remote chain, recipient and amount; so do their texts as code units, whatever the units. -/
theorem canonical_string_decodable (digestOf : String → String) :
    (∀ x y : VizDeposit ⊕ RemoteBurn, sourceBody x = sourceBody y ↔
      (sourceAction digestOf x).direction = (sourceAction digestOf y).direction ∧
      (sourceAction digestOf x).id = (sourceAction digestOf y).id ∧
      (sourceAction digestOf x).remoteChain = (sourceAction digestOf y).remoteChain ∧
      (sourceAction digestOf x).recipient = (sourceAction digestOf y).recipient ∧
      (sourceAction digestOf x).amountMilliViz = (sourceAction digestOf y).amountMilliViz) ∧
    (∀ d b, pegInBody d ≠ pegOutBody b) ∧
    ∀ s t : SourceUnits, s.body = t.body ↔ s = t := by
  have hunits : Function.Injective SourceUnits.body :=
    unitCode.encode_injective.comp SourceUnits.fields_injective
  have hbody : ∀ x y : VizDeposit ⊕ RemoteBurn,
      sourceBody x = sourceBody y ↔ sourceUnits x = sourceUnits y := fun x y => by
    rw [← hunits.eq_iff, ← unitText_sourceBody, ← unitText_sourceBody, unitText_injective.eq_iff]
  refine ⟨fun x y => (hbody x y).trans (sourceUnits_inj digestOf), fun d b h => ?_,
    fun s t => hunits.eq_iff⟩
  have := (hbody (.inl d) (.inr b)).1 h
  simp [sourceUnits] at this

end VizGateway
