import VizGateway.Wire
import VizGateway.Proofs.BodyChunks
import VizGateway.Sample

/-!
# What a signer gets of a row

The dispatcher writes a row's action to the coordinator, which reads it, describes a proposal and
writes both to a signer. However the two bodies are cut on the way, as long as no cut falls inside a
character, the signer works on the action of that row and on that proposal (`row_reaches_signer`).
-/

namespace VizGateway

open JsonText Utf16 Utf8

/-! ## Values -/

theorem textUnits_injective : Function.Injective textUnits := fun _ _ h =>
  String.toList_injective (units_injective h)

@[simp] theorem textOfUnits_textUnits (s : String) : textOfUnits (textUnits s) = some s := by
  simp [textOfUnits, textUnits]

/-- The value is written as it is: an integer that a `Number` holds, and nothing by its text. -/
def Json.Exact : Json → Prop
  | .num n => Binary64.Representable n
  | .other _ _ => False
  | _ => True

theorem representable_natCast {n : ℕ} (h : n ≤ 2 ^ 53) : Binary64.Representable (n : ℚ) := by
  rcases h.lt_or_eq with h | rfl
  · exact ⟨n, 0, by rw [Nat.abs_cast]; exact_mod_cast h, by omega, by omega, by simp⟩
  · exact ⟨2 ^ 52, 1, by norm_num, by omega, by omega, by norm_num⟩

theorem mapM_stringItem (items : List String) :
    (items.map fun s => JsonValue.str (textUnits s)).mapM stringItem = some items := by
  induction items with
  | nil => rfl
  | cons s items ih => simp [stringItem, ih]

theorem ofValue_toValue {j : Json} (h : j.Exact) : Json.ofValue j.toValue = some j := by
  cases j with
  | null => rfl
  | bool b => rfl
  | num n =>
    have hn : Binary64.ofRat n = .finite n h := Binary64.ofRat_of_representable h
    simp [Json.toValue, Json.ofValue, hn]
  | str s => simp [Json.toValue, Json.ofValue]
  | strs items => simp only [Json.toValue, Json.ofValue, mapM_stringItem]
  | other raw text => exact h.elim

theorem proper_toValue {j : Json} (h : j.Exact) : Proper j.toValue := by
  cases j with
  | num n =>
    have hn : Binary64.ofRat n = .finite n h := Binary64.ofRat_of_representable h
    simp [Json.toValue, Proper, hn, Binary64.isFinite]
  | strs items =>
    rw [Json.toValue, Proper]
    clear h
    induction items with
    | nil => trivial
    | cons s items ih => exact ⟨trivial, ih⟩
  | other raw text => exact h.elim
  | _ => trivial

/-! ## Objects -/

/-- The keys are different and the values written as they are. -/
structure JsonObject.Exact (o : JsonObject) : Prop where
  keys : (o.map (·.1)).Nodup
  values : ∀ p ∈ o, p.2.Exact

theorem mapM_propertyOfValue {o : JsonObject} (h : ∀ p ∈ o, p.2.Exact) :
    (o.map fun p => (textUnits p.1, p.2.toValue)).mapM propertyOfValue = some o := by
  induction o with
  | nil => rfl
  | cons p o ih =>
    obtain ⟨hp, ho⟩ := List.forall_mem_cons.1 h
    simp [propertyOfValue, ofValue_toValue hp, ih ho]

theorem objectOfValue_toValue {o : JsonObject} (h : o.Exact) :
    JsonObject.ofValue o.toValue = some o := mapM_propertyOfValue h.values

theorem properProps_of_forall {props : List (List UInt16 × JsonValue)}
    (h : ∀ p ∈ props, Proper p.2) : ProperProps props := by
  induction props with
  | nil => trivial
  | cons p props ih =>
    obtain ⟨hp, hprops⟩ := List.forall_mem_cons.1 h
    exact ⟨hp, ih hprops⟩

theorem proper_toValue_object {o : JsonObject} (h : o.Exact) : Proper o.toValue := by
  refine ⟨?_, properProps_of_forall ?_⟩
  · rw [List.map_map]
    show (o.map (textUnits ∘ fun p => p.1)).Nodup
    rw [← List.map_map]
    exact h.keys.map textUnits_injective
  · intro p hp
    obtain ⟨q, hq, rfl⟩ := List.mem_map.1 hp
    exact proper_toValue (h.values q hq)

/-! ## Actions and proposals -/

theorem bigIntOfString_bigintText (n : ℤ) : bigIntOfString (bigintText n) = some n := by
  rcases n with k | k
  · exact bigIntOfString_repr k
  · have hdigits : ∀ c ∈ Nat.toDigits 10 (k + 1), c.isDigit = true := fun c hc =>
      Nat.isDigit_of_mem_toDigits (by decide) (by decide) hc
    have hneg := bigIntOfString_neg Nat.toDigits_ne_nil hdigits
    rw [Nat.ofDigitChars_ten_toDigits] at hneg
    have htext : bigintText (Int.negSucc k) =
        String.ofList ('-' :: Nat.toDigits 10 (k + 1)) := by
      show "-" ++ (k + 1).repr = _
      simp [← String.toList_inj, Nat.toList_repr]
    rw [htext, hneg]
    rfl

theorem exact_actionToWire (a : CanonicalAction) : (actionToWire a).Exact := by
  unfold actionToWire
  cases a.remoteChain with
  | none => exact ⟨by simp, by simp [Json.Exact]⟩
  | some c => exact ⟨by simp, by simp [Json.Exact]⟩

/-- A row's action is read back from its wire form. -/
theorem actionFromWire_actionToWire (rec : OutboxRecord) :
    actionFromWire (actionToWire (recordToAction rec)) = some (recordToAction rec) := by
  have hdirection : ∀ d : Direction, Wire.direction d.toString = .known d := by
    rintro (_ | _ | _) <;> decide
  have hchain : ∀ c : RemoteChainId, Wire.remoteChain c.toString = .known c ∧ c.toString ≠ "" := by
    rintro (_ | _) <;> decide
  unfold actionToWire recordToAction
  rcases rec.remoteChain with _ | c
  · simp [actionFromWire, JsonObject.get, jsString, jsTruthy, bigIntOfString_bigintText,
      Wire.toString, hdirection]
  · simp [actionFromWire, JsonObject.get, jsString, jsTruthy, bigIntOfString_bigintText,
      Wire.toString, hdirection, hchain]

/-- Every number of the proposal is one a `Number` holds. -/
def Proposal.SafeNumbers : Proposal → Prop
  | .release p => p.refBlockNum ≤ 2 ^ 53 ∧ p.refBlockPrefix ≤ 2 ^ 53
  | .order _ => True
  | .mint p => p.decimals ≤ 2 ^ 53

theorem exact_proposal {p : Proposal} (h : p.SafeNumbers) : p.toJson.Exact := by
  cases p with
  | release p =>
    exact ⟨by simp [Proposal.toJson, VizReleaseProposal.toJson],
      by simp [Proposal.toJson, VizReleaseProposal.toJson, Json.Exact, representable_natCast h.1,
        representable_natCast h.2]⟩
  | order p =>
    exact ⟨by simp [Proposal.toJson, GramOrderProposal.toJson],
      by simp [Proposal.toJson, GramOrderProposal.toJson, Json.Exact]⟩
  | mint p =>
    exact ⟨by simp [Proposal.toJson, SolanaMintProposal.toJson],
      by simp [Proposal.toJson, SolanaMintProposal.toJson, Json.Exact, representable_natCast h]⟩

/-! ## Bodies -/

/-- The pieces a body arrives in: all of it, within the limit, and none ends inside a character. -/
structure Arrives (maxBytes : ℕ) (body : JsonValue) (chunks : List (List UInt8)) : Prop where
  bytes : chunks.flatten = bodyBytes body
  size : (bodyBytes body).length ≤ maxBytes
  whole : WholeCharacters chunks

variable {maxBytes : ℕ} {body : JsonValue} {chunks : List (List UInt8)}

theorem readBody_arrives (hproper : Proper body) (h : Arrives maxBytes body chunks) :
    readBody maxBytes (chunks.map .data ++ [.stop .ended]) = some body := by
  have hread := (readLimitedBody_iff maxBytes chunks .ended []).2 fun _ _ => h.whole
  rw [h.bytes, bodyOutcome, if_pos h.size] at hread
  unfold readBody
  rw [hread]
  simp only [BodyStop.outcome, textUnits, String.toList_ofList]
  exact parse_decode_textBytes hproper

theorem proper_submitBody (rec : OutboxRecord) : Proper (submitBody rec) :=
  ⟨List.nodup_singleton _, proper_toValue_object (exact_actionToWire _), trivial⟩

theorem readSubmit_submitBody {rec : OutboxRecord} (h : Arrives maxBytes (submitBody rec) chunks) :
    readSubmit maxBytes (chunks.map .data ++ [.stop .ended]) = some (recordToAction rec) := by
  have haction := objectOfValue_toValue (exact_actionToWire (recordToAction rec))
  unfold readSubmit
  rw [readBody_arrives (proper_submitBody rec) h]
  simp [submitBody, propertyOf, haction, actionFromWire_actionToWire]

theorem proper_approveBody {action : CanonicalAction} {p : Proposal} {hint : Option ℕ}
    (hp : p.SafeNumbers) (hhint : ∀ n ∈ hint, n ≤ 2 ^ 53) :
    Proper (approveBody action p hint) := by
  have haction := proper_toValue_object (exact_actionToWire action)
  have hproposal := proper_toValue_object (exact_proposal hp)
  rcases hint with _ | n
  · refine ⟨?_, haction, hproposal, trivial⟩
    show [textUnits "action", textUnits "proposal"].Nodup
    decide
  · have hn : (Json.num n).Exact := representable_natCast (hhint n rfl)
    refine ⟨?_, haction, hproposal, proper_toValue hn, trivial⟩
    show [textUnits "action", textUnits "proposal", textUnits "sourceBlockNum"].Nodup
    decide

theorem readApprove_approveBody {action : CanonicalAction} {p : Proposal} {hint : Option ℕ}
    (hp : p.SafeNumbers) (hhint : ∀ n ∈ hint, n ≤ 2 ^ 53)
    (h : Arrives maxBytes (approveBody action p hint) chunks) :
    readApprove maxBytes (chunks.map .data ++ [.stop .ended]) =
      some ⟨actionToWire action, p.toJson, hint.map fun n => .num n⟩ := by
  have haction := objectOfValue_toValue (exact_actionToWire action)
  have hproposal := objectOfValue_toValue (exact_proposal hp)
  have hkeys : textUnits "action" ≠ textUnits "proposal" ∧
      textUnits "action" ≠ textUnits "sourceBlockNum" ∧
      textUnits "proposal" ≠ textUnits "sourceBlockNum" := by decide
  unfold readApprove
  rw [readBody_arrives (proper_approveBody hp hhint) h]
  rcases hint with _ | n
  · simp [approveBody, propertyOf, haction, hproposal, hkeys]
  · have hn := ofValue_toValue (j := .num n) (representable_natCast (hhint n rfl))
    simp [approveBody, propertyOf, haction, hproposal, hkeys, hn]

/-- From a row to a signer: the coordinator reads the row's action, and the signer that action
again, the proposal and the hint. -/
theorem row_reaches_signer {rec : OutboxRecord} {p : Proposal} {hint : Option ℕ}
    {chunks' : List (List UInt8)} (hp : p.SafeNumbers) (hhint : ∀ n ∈ hint, 0 < n ∧ n ≤ 2 ^ 53)
    (h : Arrives maxBytes (submitBody rec) chunks)
    (h' : Arrives maxBytes (approveBody (recordToAction rec) p hint) chunks') :
    readSubmit maxBytes (chunks.map .data ++ [.stop .ended]) = some (recordToAction rec) ∧
      ∃ req, readApprove maxBytes (chunks'.map .data ++ [.stop .ended]) = some req ∧
        actionFromWire req.action = some (recordToAction rec) ∧ req.proposal = p.toJson ∧
        hintFromRequest req = hint := by
  refine ⟨readSubmit_submitBody h, _, readApprove_approveBody hp (fun n hn => (hhint n hn).2) h',
    actionFromWire_actionToWire rec, rfl, ?_⟩
  rcases hint with _ | n
  · rfl
  · have hn := (hhint n rfl).1
    simp [hintFromRequest, hn]

/-! ### A release -/

def wireRow : OutboxRecord :=
  { sampleSolanaRow with
    id := "5f3a:0", direction := .pegOut, recipient := "carol", digest := "9c4e" }

def wireRelease : VizReleaseProposal where
  refBlockNum := 12
  refBlockPrefix := 77
  expiration := "2026-01-01T00:01:00"
  sender := "solana.gate"
  receiver := "carol"
  amount := "250.000 VIZ"
  memo := "5f3a:0"

/-- A body in two pieces. -/
def halves (body : JsonValue) : List (List UInt8) :=
  [(bodyBytes body).take 40, (bodyBytes body).drop 40]

theorem arrives_halves (hsize : (bodyBytes body).length ≤ maxBytes)
    (hascii : (bodyBytes body).all (·.toNat < 0x80) = true) :
    Arrives maxBytes body (halves body) := by
  have hbytes : (halves body).flatten = bodyBytes body := by simp [halves]
  refine ⟨hbytes, hsize, wholeCharacters_of_ascii fun b hb => ?_⟩
  rw [hbytes] at hb
  simpa using List.all_eq_true.1 hascii b hb

theorem row_reaches_signer_sample :
    readSubmit 1048576 ((halves (submitBody wireRow)).map .data ++ [.stop .ended]) =
        some (recordToAction wireRow) ∧
      ∃ req, readApprove 1048576 ((halves (approveBody (recordToAction wireRow)
          (.release wireRelease) (some 9))).map .data ++ [.stop .ended]) = some req ∧
        actionFromWire req.action = some (recordToAction wireRow) ∧
        req.proposal = (Proposal.release wireRelease).toJson ∧ hintFromRequest req = some 9 :=
  row_reaches_signer ⟨by decide, by decide⟩ (by simp)
    (arrives_halves (by decide +kernel) (by decide +kernel))
    (arrives_halves (by decide +kernel) (by decide +kernel))

end VizGateway
