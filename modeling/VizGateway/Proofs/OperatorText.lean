import VizGateway.OperatorSpec

/-!
# Reading a written operator list

An entry is read back if no part of it holds the separator behind that part
(`parseOperators_serialize`). What the parser accepts is of that kind, whatever the text was.
-/

namespace VizGateway

open Checks Text

namespace OperatorText

/-- A key between two colons. -/
structure KeyText (s : String) : Prop where
  trimmed : Trimmed s
  comma : ',' ∉ s.toList
  colon : ':' ∉ s.toList

/-- An operator whose entry can be read back; the first `=` stands behind the id. -/
structure Readable (o : OperatorRef) : Prop where
  id_ne : o.id ≠ ""
  id_trimmed : Trimmed o.id
  id_comma : ',' ∉ o.id.toList
  id_eq : '=' ∉ o.id.toList
  viz_ne : o.vizPubkey ≠ ""
  viz : KeyText o.vizPubkey
  ton_ne : o.tonPubkey ≠ ""
  ton : KeyText o.tonPubkey
  solana : KeyText o.solanaPubkey

/-- The keys of an entry. -/
def keysText (o : OperatorRef) : String :=
  o.vizPubkey ++ ":" ++ o.tonPubkey ++ (if o.solanaPubkey = "" then "" else ":" ++ o.solanaPubkey)

variable {o : OperatorRef} {entry : String}

theorem serializeOperator_eq (o : OperatorRef) :
    serializeOperator o = o.id ++ '='.toString ++ keysText o := by
  simp only [serializeOperator, keysText, String.append_assoc]
  rfl

theorem keysText_trimmed (h : Readable o) : Trimmed (keysText o) ∧ keysText o ≠ "" := by
  have hne : ∀ a b : String, a ≠ "" → a ++ b ≠ "" := by
    intro a b ha hab
    exact ha (String.append_eq_empty_iff.1 hab).1
  refine ⟨?_, by
    rw [keysText, String.append_assoc, String.append_assoc]
    exact hne _ _ h.viz_ne⟩
  unfold keysText
  by_cases hsol : o.solanaPubkey = ""
  · rw [if_pos hsol, String.append_empty]
    exact h.viz.trimmed.append h.ton.trimmed h.viz_ne h.ton_ne ":"
  · have hparts : o.vizPubkey ++ ":" ++ o.tonPubkey ++ (":" ++ o.solanaPubkey) =
        o.vizPubkey ++ (":" ++ o.tonPubkey ++ ":") ++ o.solanaPubkey := by
      simp [String.append_assoc]
    rw [if_neg hsol, hparts]
    exact h.viz.trimmed.append h.solana.trimmed h.viz_ne hsol _

theorem split_keysText (h : Readable o) : split (keysText o) ':' =
    [o.vizPubkey, o.tonPubkey] ++ (if o.solanaPubkey = "" then [] else [o.solanaPubkey]) := by
  unfold keysText
  by_cases hsol : o.solanaPubkey = ""
  · rw [if_pos hsol, if_pos hsol, String.append_empty]
    exact (split_append h.viz.colon).trans (by rw [split_of_notMem h.ton.colon]; rfl)
  · rw [if_neg hsol, if_neg hsol, String.append_assoc]
    refine (split_append h.viz.colon).trans ?_
    rw [← String.append_assoc]
    refine congrArg (o.vizPubkey :: ·) ((split_append h.ton.colon).trans ?_)
    rw [split_of_notMem h.solana.colon]
    rfl

theorem parseOperator_serialize (h : Readable o) :
    parseOperator (serializeOperator o) = .ok o := by
  have hkeys := keysText_trimmed h
  have hindex : indexOf (serializeOperator o) '=' = some o.id.toList.length := by
    rw [serializeOperator_eq]
    exact indexOf_append h.id_eq
  have hid : takeStr (serializeOperator o) o.id.toList.length = o.id := by
    rw [serializeOperator_eq, String.append_assoc]
    exact takeStr_append _ _
  have hrest : dropStr (serializeOperator o) (o.id.toList.length + 1) = keysText o := by
    have hlen : o.id.toList.length + 1 = (o.id ++ '='.toString).toList.length := by
      simp [Char.toString_eq_singleton]
    rw [serializeOperator_eq, hlen]
    exact dropStr_append _ _
  have hread : operatorKeys (serializeOperator o) ((split (keysText o) ':').map trim) =
      .ok (o.vizPubkey, o.tonPubkey, o.solanaPubkey) := by
    rw [split_keysText h]
    by_cases hsol : o.solanaPubkey = ""
    · simp [hsol, operatorKeys, trim_of_trimmed h.viz.trimmed, trim_of_trimmed h.ton.trimmed]
    · simp [hsol, operatorKeys, trim_of_trimmed h.viz.trimmed, trim_of_trimmed h.ton.trimmed,
        trim_of_trimmed h.solana.trimmed]
  simp only [parseOperator, bind_eq_ok, found_eq_ok, require_eq_ok, pure_eq_ok]
  refine ⟨_, hindex, (o.vizPubkey, o.tonPubkey, o.solanaPubkey), ?_, ⟨⟩, ?_, ?_⟩
  · rw [hrest, trim_of_trimmed hkeys.1]
    exact hread
  · rw [hid, trim_of_trimmed h.id_trimmed]
    exact ⟨h.id_ne, h.viz_ne, h.ton_ne⟩
  · rw [hid, trim_of_trimmed h.id_trimmed]

/-- A written entry is a piece of its own: not empty, without a comma, nothing to trim. -/
theorem serializeOperator_piece (h : Readable o) : serializeOperator o ≠ "" ∧
    Trimmed (serializeOperator o) ∧ ',' ∉ (serializeOperator o).toList := by
  obtain ⟨hkeys, hne⟩ := keysText_trimmed h
  refine ⟨?_, ?_, ?_⟩
  · rw [serializeOperator_eq, String.append_assoc]
    exact fun hempty => h.id_ne (String.append_eq_empty_iff.1 hempty).1
  · rw [serializeOperator_eq]
    exact h.id_trimmed.append hkeys h.id_ne hne _
  · unfold serializeOperator
    have hcomma : ∀ s : String, ',' ∉ s.toList → ∀ t : String, ',' ∉ t.toList →
        ',' ∉ (s ++ t).toList := by
      intro s hs t ht
      rw [String.toList_append, List.mem_append]
      exact not_or.2 ⟨hs, ht⟩
    refine hcomma _ (hcomma _ (hcomma _ (hcomma _ (hcomma _ h.id_comma _ (by decide)) _
      h.viz.comma) _ (by decide)) _ h.ton.comma) _ ?_
    split_ifs
    · decide
    · exact hcomma _ (by decide) _ h.solana.comma

/-- What the parser makes of a piece can be written. -/
theorem readable_of_parse (h : parseOperator entry = .ok o) (hcomma : ',' ∉ entry.toList) :
    Readable o := by
  simp only [parseOperator, bind_eq_ok, found_eq_ok, require_eq_ok, pure_eq_ok] at h
  obtain ⟨eq, hindex, ⟨viz, ton, solana⟩, hkeys, -, ⟨hid, hviz, hton⟩, rfl⟩ := h
  have hsub : ∀ c, c ∈ (trim (dropStr entry (eq + 1))).toList → c ∈ entry.toList := by
    intro c hc
    have := mem_trim hc
    rw [dropStr, String.toList_ofList] at this
    exact List.mem_of_mem_drop this
  have hkey : ∀ s ∈ (split (trim (dropStr entry (eq + 1))) ':').map trim, KeyText s := by
    intro s hs
    obtain ⟨p, hp, rfl⟩ := List.mem_map.1 hs
    exact ⟨trimmed_trim p, fun hc => hcomma (hsub _ (mem_split hp (mem_trim hc)).1),
      fun hc => (mem_split hp (mem_trim hc)).2 rfl⟩
  have hid' : ∀ c ∈ (trim (takeStr entry eq)).toList, c ∈ (takeStr entry eq).toList :=
    fun c hc => mem_trim hc
  have hread : KeyText viz ∧ KeyText ton ∧ KeyText solana := by
    generalize (split (trim (dropStr entry (eq + 1))) ':').map trim = keys at hkeys hkey
    unfold operatorKeys at hkeys
    split at hkeys
    · cases hkeys
      exact ⟨hkey _ (by simp), hkey _ (by simp), ⟨by simp [Trimmed], by simp, by simp⟩⟩
    · cases hkeys
      exact ⟨hkey _ (by simp), hkey _ (by simp), hkey _ (by simp)⟩
    · cases hkeys
  refine ⟨hid, trimmed_trim _, fun hc => hcomma ?_, fun hc => ?_, hviz, hread.1, hton, hread.2.1,
    hread.2.2⟩
  · have := hid' _ hc
    rw [takeStr, String.toList_ofList] at this
    exact List.mem_of_mem_take this
  · exact notMem_takeStr_of_indexOf hindex (hid' _ hc)

theorem parseOperators_serialize {ops : List OperatorRef} (h : ∀ o ∈ ops, Readable o) :
    parseOperators (serializeOperators ops) = .ok ops := by
  unfold parseOperators serializeOperators
  rcases ops with _ | ⟨o, ops⟩
  · rfl
  · have hpieces : split (String.intercalate (Char.toString ',') ((o :: ops).map serializeOperator)) ',' =
        (o :: ops).map serializeOperator := by
      refine split_intercalate (fun s hs => ?_) (by simp)
      obtain ⟨p, hp, rfl⟩ := List.mem_map.1 hs
      exact (serializeOperator_piece (h p hp)).2.2
    have htrim : ((o :: ops).map serializeOperator).map trim = (o :: ops).map serializeOperator := by
      rw [List.map_map]
      exact List.map_congr_left fun p hp => trim_of_trimmed (serializeOperator_piece (h p hp)).2.1
    have hfilter : ((o :: ops).map serializeOperator).filter (· ≠ "") =
        (o :: ops).map serializeOperator := by
      rw [List.filter_eq_self]
      intro s hs
      obtain ⟨p, hp, rfl⟩ := List.mem_map.1 hs
      simpa using (serializeOperator_piece (h p hp)).1
    rw [show "," = Char.toString ',' from rfl, hpieces, htrim, hfilter, mapM_eq_ok,
      List.forall₂_map_left_iff, List.forall₂_same]
    exact fun p hp => parseOperator_serialize (h p hp)

theorem readable_of_parseOperators {spec : String} {ops : List OperatorRef}
    (h : parseOperators spec = .ok ops) : ∀ o ∈ ops, Readable o := by
  rw [parseOperators, mapM_eq_ok] at h
  intro o ho
  obtain ⟨i, hi, rfl⟩ := List.mem_iff_getElem.1 ho
  have hlen := h.length_eq
  have hentry := List.mem_of_mem_filter (List.getElem_mem (hlen ▸ hi))
  obtain ⟨piece, hpiece, htrim⟩ := List.mem_map.1 hentry
  refine readable_of_parse (h.get (hlen ▸ hi) hi) ?_
  rw [List.get_eq_getElem, ← htrim]
  exact fun hc => (mem_split hpiece (mem_trim hc)).2 rfl

/-- A field that holds none of the separators, with nothing to trim. -/
def PlainField (s : String) : Prop :=
  trim s = s ∧ ',' ∉ s.toList ∧ '=' ∉ s.toList ∧ ':' ∉ s.toList

/-- An operator with plain fields, the Solana key alone possibly empty. -/
structure PlainOperator (o : OperatorRef) : Prop where
  id : PlainField o.id ∧ o.id ≠ ""
  vizPubkey : PlainField o.vizPubkey ∧ o.vizPubkey ≠ ""
  tonPubkey : PlainField o.tonPubkey ∧ o.tonPubkey ≠ ""
  solanaPubkey : PlainField o.solanaPubkey

theorem PlainField.keyText {s : String} (h : PlainField s) : KeyText s :=
  ⟨trim_eq_self_iff.1 h.1, h.2.1, h.2.2.2⟩

theorem PlainOperator.readable (h : PlainOperator o) : Readable o where
  id_ne := h.id.2
  id_trimmed := trim_eq_self_iff.1 h.id.1.1
  id_comma := h.id.1.2.1
  id_eq := h.id.1.2.2.1
  viz_ne := h.vizPubkey.2
  viz := h.vizPubkey.1.keyText
  ton_ne := h.tonPubkey.2
  ton := h.tonPubkey.1.keyText
  solana := h.solanaPubkey.keyText

end OperatorText

open OperatorText

/-- Plain operators are read back as written, and so is every list the parser accepted. -/
theorem operators_codec :
    (∀ ops : List OperatorRef, (∀ o ∈ ops, PlainOperator o) →
      parseOperators (serializeOperators ops) = .ok ops) ∧
    ∀ (spec : String) (ops : List OperatorRef), parseOperators spec = .ok ops →
      parseOperators (serializeOperators ops) = .ok ops :=
  ⟨fun _ h => parseOperators_serialize fun o ho => (h o ho).readable,
    fun _ _ h => parseOperators_serialize (readable_of_parseOperators h)⟩

/-- A set of two, one of them without a Solana key. -/
def twoOperators : List OperatorRef := [⟨"op-1", "VIZ5a", "ab12", "Fx9"⟩, ⟨"op-2", "VIZ7b", "cd34", ""⟩]

example : serializeOperators twoOperators = "op-1=VIZ5a:ab12:Fx9,op-2=VIZ7b:cd34" := by decide

theorem operators_codec_sample :
    parseOperators (serializeOperators twoOperators) = .ok twoOperators ∧
      parseOperators (serializeOperators [⟨"a:1", "=k", "t", ""⟩]) = .ok [⟨"a:1", "=k", "t", ""⟩] := by
  have hfield : ∀ s ∈ ["op-1", "VIZ5a", "ab12", "Fx9", "op-2", "VIZ7b", "cd34", ""],
      PlainField s := by
    unfold PlainField
    decide
  refine ⟨operators_codec.1 _ fun o ho => ?_, operators_codec.2 " a:1 ==k: t :" _ (by decide)⟩
  simp only [twoOperators, List.mem_cons, List.not_mem_nil, or_false] at ho
  rcases ho with rfl | rfl
  · exact ⟨⟨hfield _ (by simp), by decide⟩, ⟨hfield _ (by simp), by decide⟩,
      ⟨hfield _ (by simp), by decide⟩, hfield _ (by simp)⟩
  · exact ⟨⟨hfield _ (by simp), by decide⟩, ⟨hfield _ (by simp), by decide⟩,
      ⟨hfield _ (by simp), by decide⟩, hfield _ (by simp)⟩

end VizGateway
