import VizGateway.TonCells

/-!
# Reading cells back

Every field is a prefix code: its width is fixed, or written in front of it. A dictionary is read
back through the grammar of its edges: the label forms are told apart by their first bits, and an
edge is a leaf exactly when its label is all that is left of the key.
-/

namespace VizGateway

open PrefixCode Builder

/-! ## Numbers -/

@[simp] theorem length_natBits (w n : ℕ) : (natBits w n).length = w := by
  induction w with
  | zero => rfl
  | succ w ih => simp [natBits, ih]

theorem testBit_eq_of_natBits {w m n : ℕ} (h : natBits w m = natBits w n) :
    ∀ i < w, m.testBit i = n.testBit i := by
  induction w with
  | zero => omega
  | succ w ih =>
    simp only [natBits, List.cons.injEq] at h
    intro i hi
    rcases Nat.lt_succ_iff_lt_or_eq.1 hi with hi | rfl
    · exact ih h.2 i hi
    · exact h.1

theorem natBits_inj {w m n : ℕ} (hm : m < 2 ^ w) (hn : n < 2 ^ w)
    (h : natBits w m = natBits w n) : m = n := by
  refine Nat.eq_of_testBit_eq fun i => ?_
  rcases Nat.lt_or_ge i w with hi | hi
  · exact testBit_eq_of_natBits h i hi
  · have hpow : 2 ^ w ≤ 2 ^ i := Nat.pow_le_pow_right (by omega) hi
    rw [Nat.testBit_lt_two_pow (by omega), Nat.testBit_lt_two_pow (by omega)]

/-! ## Fields -/

theorem ofBits_mul_inj {l l' : List Bool} {x y : Builder} (hlen : l.length = l'.length)
    (h : ofBits l * x = ofBits l' * y) : l = l' ∧ x = y := by
  rw [Builder.ext_iff, mul_bits, mul_bits, mul_refs, mul_refs] at h
  obtain ⟨hl, hx⟩ := List.append_inj h.1 hlen
  exact ⟨hl, Builder.ext hx h.2⟩

theorem storeUint_eq_some {n : ℤ} {w : ℕ} {u : Builder} (h : storeUint n w = some u) :
    0 ≤ n ∧ n.toNat < 2 ^ w ∧ u = ofBits (natBits w n.toNat) := by
  unfold storeUint at h
  split_ifs at h with hn
  refine ⟨hn.1, ?_, (Option.some.inj h).symm⟩
  zify
  rw [Int.toNat_of_nonneg hn.1]
  exact hn.2

theorem prefixCode_storeUint (w : ℕ) : PrefixCode fun n => storeUint n w := by
  intro a b u v x y ha hb h
  obtain ⟨ha0, halt, rfl⟩ := storeUint_eq_some ha
  obtain ⟨hb0, hblt, rfl⟩ := storeUint_eq_some hb
  obtain ⟨hbits, hxy⟩ := ofBits_mul_inj (by simp) h
  have := natBits_inj halt hblt hbits
  exact ⟨by omega, hxy⟩

theorem prefixCode_storeInt : PrefixCode fun n => storeInt n 8 := by
  intro a b u v x y ha hb h
  simp only [storeInt, Option.ite_none_right_eq_some, Option.some.injEq] at ha hb
  obtain ⟨ha, rfl⟩ := ha
  obtain ⟨hb, rfl⟩ := hb
  obtain ⟨hbits, hxy⟩ := ofBits_mul_inj (by simp) h
  have := natBits_inj (by omega) (by omega) hbits
  exact ⟨by omega, hxy⟩

theorem prefixCode_storeBuffer (bytes : ℕ) : PrefixCode (storeBuffer bytes) := by
  intro a b u v x y ha hb h
  simp only [storeBuffer, Option.ite_none_right_eq_some, Option.some.injEq] at ha hb
  obtain ⟨ha, rfl⟩ := ha
  obtain ⟨hb, rfl⟩ := hb
  exact ofBits_mul_inj (ha.trans hb.symm) h

theorem prefixCode_storeBit : PrefixCode storeBit := by
  intro a b u v x y ha hb h
  obtain rfl := Option.some.inj ha
  obtain rfl := Option.some.inj hb
  obtain ⟨hbits, hxy⟩ := ofBits_mul_inj (by simp) h
  exact ⟨List.head_eq_of_cons_eq hbits, hxy⟩

theorem prefixCode_storeRef : PrefixCode storeRef := by
  intro a b u v x y ha hb h
  obtain rfl := Option.some.inj ha
  obtain rfl := Option.some.inj hb
  rw [Builder.ext_iff, mul_refs, mul_refs] at h
  have hrefs := List.cons.inj h.2
  exact ⟨hrefs.1, Builder.ext h.1 hrefs.2⟩

/-- The byte count comes first and says how wide the amount is. -/
theorem prefixCode_storeCoins : PrefixCode storeCoins := by
  refine of_same fun a b x y h => ?_
  obtain ⟨hsize, h⟩ := Same.cons (prefixCode_storeUint 4) h
  rw [Nat.cast_inj.1 hsize] at h
  obtain ⟨hab, h⟩ := Same.cons (prefixCode_storeUint _) h
  exact ⟨hab, h.nil⟩

theorem prefixCode_storeAddress : PrefixCode storeAddress := by
  refine of_same fun a b x y h => ?_
  obtain ⟨hworkchain, h⟩ := Same.cons prefixCode_storeInt h.const.const
  obtain ⟨hhash, h⟩ := Same.cons (prefixCode_storeBuffer 32) h
  refine ⟨?_, h.nil⟩
  cases a
  cases b
  exact TonAddress.mk.injEq .. ▸ ⟨hworkchain, hhash⟩

theorem same_of_cellOf {ps qs : List (Option Builder)} {c : Cell} (hp : cellOf ps = some c)
    (hq : cellOf qs = some c) : Same ps 1 qs 1 := by
  obtain ⟨u, hu, hc⟩ := Option.bind_eq_some_iff.1 hp
  obtain ⟨v, hv, hc'⟩ := Option.bind_eq_some_iff.1 hq
  obtain rfl := endCell_inj hc hc'
  exact .of_eq hu hv

/-! ## Labels -/

/-- `HmLabel`, over a key of `n` bits: a length in unary, a length in binary, or one repeated bit. -/
inductive HmLabel (n : ℕ) : List Bool → List Bool → Prop
  | short {label : List Bool} :
    HmLabel n label (false :: List.replicate label.length true ++ false :: label)
  | long {label : List Bool} (hlen : label.length ≤ n) :
    HmLabel n label ([true, false] ++ natBits n.size label.length ++ label)
  | same {b : Bool} {k : ℕ} (hlen : k ≤ n) :
    HmLabel n (List.replicate k b) ([true, true, b] ++ natBits n.size k)

theorem writeLabel_hmLabel {n : ℕ} {label : List Bool} {u : Builder}
    (h : writeLabel n label = some u) : ∃ bits, HmLabel n label bits ∧ u = ofBits bits := by
  unfold writeLabel at h
  simp only [] at h
  split_ifs at h with hlen hsame hlong <;> obtain rfl := Option.some.inj h
  · have hlabel := HmLabel.same (b := label.headD false) (not_lt.1 hlen)
    rw [← hsame.1] at hlabel
    exact ⟨_, hlabel, rfl⟩
  · exact ⟨_, .long (not_lt.1 hlen), rfl⟩
  · exact ⟨_, .short, rfl⟩

theorem unary_inj {k k' : ℕ} {x y : List Bool}
    (h : List.replicate k true ++ false :: x = List.replicate k' true ++ false :: y) :
    k = k' ∧ x = y := by
  induction k generalizing k' with
  | zero => cases k' <;> simp_all [List.replicate_succ]
  | succ k ih =>
    cases k' with
    | zero => simp [List.replicate_succ] at h
    | succ k' =>
      simp only [List.replicate_succ, List.cons_append, List.cons.injEq, true_and] at h
      obtain ⟨rfl, hxy⟩ := ih h
      exact ⟨rfl, hxy⟩

theorem HmLabel.append_inj {n : ℕ} {label label' bits bits' x y : List Bool}
    (hl : HmLabel n label bits) (hl' : HmLabel n label' bits') (h : bits ++ x = bits' ++ y) :
    label = label' ∧ x = y := by
  have hsize : n < 2 ^ n.size := Nat.lt_size_self n
  cases hl with
  | short =>
    cases hl' with
    | short =>
      simp only [List.cons_append, List.append_assoc, List.cons.injEq, true_and] at h
      obtain ⟨hlen, h⟩ := unary_inj h
      exact List.append_inj h hlen
    | long => simp at h
    | same => simp at h
  | long hlen =>
    cases hl' with
    | short => simp at h
    | long hlen' =>
      simp only [List.cons_append, List.nil_append, List.append_assoc, List.cons.injEq,
        true_and] at h
      obtain ⟨hbits, h⟩ := List.append_inj h (by simp)
      exact List.append_inj h (natBits_inj (by omega) (by omega) hbits)
    | same => simp at h
  | same hlen =>
    cases hl' with
    | short => simp at h
    | long => simp at h
    | same hlen' =>
      simp only [List.cons_append, List.nil_append, List.cons.injEq, true_and] at h
      obtain ⟨rfl, h⟩ := h
      obtain ⟨hbits, hxy⟩ := List.append_inj h (by simp)
      rw [natBits_inj (by omega) (by omega) hbits]
      exact ⟨rfl, hxy⟩

/-! ## Edges -/

section

variable {V : Type} {write : V → Option Builder}

/-- An entry under a longer key. -/
def under (label : List Bool) (e : List Bool × V) : List Bool × V := (label ++ e.1, e.2)

/-- `Hashmap n X`: a label, then the value if no key is left, else one more bit and two edges. -/
inductive Hashmap (write : V → Option Builder) : ℕ → List (List Bool × V) → Builder → Prop
  | leaf {n : ℕ} {label bits : List Bool} {v : V} {u : Builder} (hl : HmLabel n label bits)
    (hlen : label.length = n) (hv : write v = some u) :
    Hashmap write n [(label, v)] (ofBits bits * u)
  | fork {n m : ℕ} {label bits : List Bool} {es es' : List (List Bool × V)} {l r : Builder}
    {left right : Cell} (hl : HmLabel n label bits) (hlen : n = label.length + (m + 1))
    (hleft : Hashmap write m es l) (hright : Hashmap write m es' r)
    (hcell : l.endCell = some left) (hcell' : r.endCell = some right) :
    Hashmap write n (es.map (under (label ++ [false])) ++ es'.map (under (label ++ [true])))
      (ofBits bits * (ofRef left * ofRef right))

theorem hmLabel_mul_inj {n : ℕ} {label label' bits bits' : List Bool} {x y : Builder}
    (hl : HmLabel n label bits) (hl' : HmLabel n label' bits')
    (h : ofBits bits * x = ofBits bits' * y) : label = label' ∧ x = y := by
  rw [Builder.ext_iff] at h
  obtain ⟨hlabel, hx⟩ := hl.append_inj hl' h.1
  exact ⟨hlabel, Builder.ext hx h.2⟩

/-- A cell is the edge of one map only. -/
theorem Hashmap.unique (hwrite : PrefixCode write) {n : ℕ} {es es' : List (List Bool × V)}
    {b b' : Builder} (h : Hashmap write n es b) (h' : Hashmap write n es' b') (hb : b = b') :
    es = es' := by
  induction h generalizing es' b' with
  | leaf hl hlen hv =>
    cases h' with
    | leaf hl' hlen' hv' =>
      obtain ⟨rfl, rfl⟩ := hmLabel_mul_inj hl hl' hb
      rw [hwrite.inj hv hv']
    | fork hl' hlen' =>
      obtain ⟨rfl, -⟩ := hmLabel_mul_inj hl hl' hb
      omega
  | fork hl hlen hleft hright hcell hcell' ihl ihr =>
    cases h' with
    | leaf hl' hlen' =>
      obtain ⟨rfl, -⟩ := hmLabel_mul_inj hl hl' hb
      omega
    | fork hl' hlen' hleft' hright' hcell₁ hcell₁' =>
      obtain ⟨rfl, hrefs⟩ := hmLabel_mul_inj hl hl' hb
      obtain rfl := Nat.succ_inj.1 (Nat.add_left_cancel (hlen.symm.trans hlen'))
      have hcells := congrArg Builder.refs hrefs
      simp only [mul_refs, ofRef_refs, List.cons_append, List.nil_append, List.cons.injEq,
        and_true] at hcells
      obtain ⟨rfl, rfl⟩ := hcells
      rw [ihl hleft' (endCell_inj hcell hcell₁), ihr hright' (endCell_inj hcell' hcell₁')]

theorem length_of_mem_branch {m : ℕ} {b : Bool} {es : List (List Bool × V)}
    (hkeys : ∀ e ∈ es, e.1.length = m + 1) : ∀ e ∈ branch b es, e.1.length = m := by
  intro e he
  obtain ⟨⟨key, v⟩, hmem, hb⟩ := List.mem_filterMap.1 he
  have hlen := hkeys _ hmem
  cases key with
  | nil => simp at hlen
  | cons c key =>
    simp only [Option.ite_none_right_eq_some, Option.some.injEq] at hb
    obtain ⟨-, rfl⟩ := hb
    simpa using hlen

/-- Entries are those of the left edge and those of the right one. -/
theorem branch_perm {m : ℕ} {es : List (List Bool × V)} (hkeys : ∀ e ∈ es, e.1.length = m + 1) :
    ((branch false es).map (under [false]) ++ (branch true es).map (under [true])).Perm es := by
  induction es with
  | nil => exact .nil
  | cons e es ih =>
    have ih := ih fun e he => hkeys e (List.mem_cons_of_mem _ he)
    obtain ⟨key, v⟩ := e
    cases key with
    | nil => simpa using hkeys ([], v) List.mem_cons_self
    | cons c key =>
      cases c with
      | false => simpa [branch, under] using ih
      | true =>
        simp only [branch, List.filterMap_cons] at ih ⊢
        exact List.perm_middle.trans (ih.cons _)

theorem map_under_nil (es : List (List Bool × V)) : es.map (under []) = es :=
  List.map_id es

theorem map_under_under (l l' : List Bool) (es : List (List Bool × V)) :
    (es.map (under l')).map (under l) = es.map (under (l ++ l')) := by
  simp [under]

theorem writeEdge_hashmap {m n : ℕ} {label : List Bool} {es : List (List Bool × V)} {b : Builder}
    (hn : n = label.length + m) (hkeys : ∀ e ∈ es, e.1.length = m)
    (h : writeEdge write n label m es = some b) :
    ∃ es', es'.Perm (es.map (under label)) ∧ Hashmap write n es' b := by
  induction m generalizing n label es b with
  | zero =>
    unfold writeEdge at h
    split at h
    · next key v _ =>
      obtain ⟨u, w, hlabel, hw, rfl⟩ := concat_cons_eq_some.1 h
      obtain ⟨u', w', hv, hw', rfl⟩ := concat_cons_eq_some.1 hw
      obtain rfl := Option.some.inj hw'
      obtain ⟨bits, hbits, rfl⟩ := writeLabel_hmLabel hlabel
      have hkey : key = [] := List.eq_nil_of_length_eq_zero (hkeys _ List.mem_cons_self)
      rw [mul_one]
      refine ⟨_, ?_, .leaf hbits hn.symm hv⟩
      simp [under, hkey]
    · simp at h
    · next heq => simp at heq
  | succ m ih =>
    have hperm := (branch_perm hkeys).map (under label)
    rw [List.map_append, map_under_under, map_under_under] at hperm
    have hleft := length_of_mem_branch (b := false) hkeys
    have hright := length_of_mem_branch (b := true) hkeys
    unfold writeEdge at h
    simp only [] at h
    split_ifs at h with hr hl
    · obtain ⟨es', hes, hmap⟩ := ih (by simp; omega) hleft h
      rw [hr, List.map_nil, List.append_nil] at hperm
      exact ⟨es', hes.trans hperm, hmap⟩
    · obtain ⟨es', hes, hmap⟩ := ih (by simp; omega) hright h
      rw [hl, List.map_nil, List.nil_append] at hperm
      exact ⟨es', hes.trans hperm, hmap⟩
    · obtain ⟨u, w, hlabel, hw, rfl⟩ := concat_cons_eq_some.1 h
      obtain ⟨u', w', hl', hw', rfl⟩ := concat_cons_eq_some.1 hw
      obtain ⟨u'', w'', hr', hw'', rfl⟩ := concat_cons_eq_some.1 hw'
      obtain rfl := Option.some.inj hw''
      obtain ⟨bits, hbits, rfl⟩ := writeLabel_hmLabel hlabel
      obtain ⟨left, hleftCell, rfl⟩ := Option.map_eq_some_iff.1 hl'
      obtain ⟨right, hrightCell, rfl⟩ := Option.map_eq_some_iff.1 hr'
      obtain ⟨l, hwl, hcl⟩ := Option.bind_eq_some_iff.1 hleftCell
      obtain ⟨r, hwr, hcr⟩ := Option.bind_eq_some_iff.1 hrightCell
      obtain ⟨es₁, hes₁, hmap₁⟩ := ih (by simp) hleft hwl
      obtain ⟨es₂, hes₂, hmap₂⟩ := ih (by simp) hright hwr
      rw [mul_one]
      refine ⟨_, ?_, .fork hbits hn hmap₁ hmap₂ hcl hcr⟩
      rw [map_under_nil] at hes₁ hes₂
      exact ((hes₁.map _).append (hes₂.map _)).trans hperm

/-! ## Arrays as dictionaries -/

theorem mem_keyed {values : List V} {i : ℕ} {v : V} :
    (natBits 8 i, v) ∈ keyed values ↔ ∃ j, natBits 8 j = natBits 8 i ∧ values[j]? = some v := by
  simp only [keyed, List.mem_map, Prod.exists, List.mem_zipIdx_iff_getElem?, Prod.mk.injEq]
  grind

theorem storeDictDirect_inj (hwrite : PrefixCode write) {values values' : List V} {b : Builder}
    (h : storeDictDirect write values = some b) (h' : storeDictDirect write values' = some b) :
    values = values' := by
  unfold storeDictDirect at h h'
  split_ifs at h h' with hlen hlen'
  have hkeys : ∀ values : List V, ∀ e ∈ keyed values, e.1.length = 8 := by
    rintro values e he
    obtain ⟨⟨v, i⟩, -, rfl⟩ := List.mem_map.1 he
    simp
  obtain ⟨es, hes, hmap⟩ := writeEdge_hashmap (by rfl) (hkeys values) h
  obtain ⟨es', hes', hmap'⟩ := writeEdge_hashmap (by rfl) (hkeys values') h'
  obtain rfl := hmap.unique hwrite hmap' rfl
  have hperm := hes.symm.trans hes'
  rw [map_under_nil, map_under_nil] at hperm
  have hlength : values.length = values'.length := by
    simpa [keyed] using hperm.length_eq
  refine List.ext_getElem hlength fun i hi hi' => ?_
  have hmem : (natBits 8 i, values[i]) ∈ keyed values :=
    mem_keyed.2 ⟨i, rfl, List.getElem?_eq_getElem hi⟩
  obtain ⟨j, hj, hget⟩ := mem_keyed.1 (hperm.mem_iff.1 hmem)
  obtain ⟨hjlen, hget⟩ := List.getElem?_eq_some_iff.1 hget
  obtain rfl := natBits_inj (by omega) (by omega) hj
  exact hget.symm

end

end VizGateway
