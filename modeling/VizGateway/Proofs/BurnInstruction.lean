import VizGateway.DepositProgram

/-!
# The burn instruction

The program's slices stay in bounds and its sums below `2^64`, whatever the data. It accepts exactly
the Borsh form of a name and an amount with anything behind it, so what the gateway writes is what
it reads; and what it burns is the amount it read, at the address of the name it read.
-/

namespace VizGateway

open Checks Text

/-! ## Reading the arguments -/

theorem byteAt_eq_ok {s : List UInt8} {i : ℕ} (h : i < s.length) : byteAt s i = .ok s[i] := by
  unfold byteAt
  rw [List.getElem?_eq_getElem h]
  rfl

theorem slice_eq_ok {s : List UInt8} {lo hi : ℕ} (h : lo ≤ hi ∧ hi ≤ s.length) :
    slice s lo hi = .ok ((s.take hi).drop lo) := by
  rw [slice, require_of h]
  rfl

theorem usizeAdd_eq_ok {a b : ℕ} (h : a + b < 2 ^ 64) : usizeAdd a b = .ok (a + b) := by
  rw [usizeAdd, require_of h]
  rfl

/-- Behind the discriminator and a length, the rest decides. -/
theorem burnDepositArgs_eq {len rest : List UInt8} (hlen : len.length = 4) :
    burnDepositArgs (BURN_DEPOSIT_DISC ++ (len ++ rest)) =
      if ofLittleEndian len + 8 ≤ rest.length
          ∧ Utf8.isValid (rest.take (ofLittleEndian len)) = true then
        .ok (rest.take (ofLittleEndian len),
          ofLittleEndian ((rest.drop (ofLittleEndian len)).take 8))
      else .error (.custom ERR_INSTRUCTION_DID_NOT_DESERIALIZE) := by
  have hlt := ofLittleEndian_lt len
  rw [hlen] at hlt
  have hpre : BURN_DEPOSIT_DISC.isPrefixOf (BURN_DEPOSIT_DISC ++ (len ++ rest)) = true :=
    List.isPrefixOf_iff_prefix.2 (List.prefix_append ..)
  have hargs : (len ++ rest).length = rest.length + 4 := by
    rw [List.length_append, hlen]
    omega
  have hbytes : [(len ++ rest)[0], (len ++ rest)[1], (len ++ rest)[2], (len ++ rest)[3]] = len := by
    match len, hlen with
    | [b0, b1, b2, b3], _ => rfl
  have hrest : ((len ++ rest).take (len ++ rest).length).drop 4 = rest := by
    rw [List.take_length, List.drop_left' hlen]
  unfold burnDepositArgs
  rw [require_of hpre, ok_bind, List.drop_left]
  simp only
  rw [require_of (c := ¬ (len ++ rest).length < 4) (by omega), ok_bind,
    byteAt_eq_ok (by omega), ok_bind, byteAt_eq_ok (by omega), ok_bind,
    byteAt_eq_ok (by omega), ok_bind, byteAt_eq_ok (by omega), ok_bind, hbytes,
    slice_eq_ok (by omega), ok_bind, hrest]
  generalize ofLittleEndian len = n at *
  rw [usizeAdd_eq_ok (by omega), ok_bind]
  by_cases hfits : n + 8 ≤ rest.length
  · rw [require_of (c := ¬ rest.length < n + 8) (by omega), ok_bind,
      slice_eq_ok (by omega), ok_bind, List.drop_zero]
    by_cases hvalid : Utf8.isValid (rest.take n) = true
    · have hamount : ((rest.take (n + 8)).drop n).length = 8 := by
        rw [List.length_drop, List.length_take]
        omega
      rw [require_of hvalid,
        ok_bind, ok_bind, slice_eq_ok (by omega), ok_bind,
        require_of hamount,
        ok_bind, if_pos ⟨hfits, hvalid⟩, List.drop_take, Nat.add_sub_cancel_left]
      rfl
    · rw [require_of_not hvalid,
        if_neg fun h => hvalid h.2]
      rfl
  · rw [require_of_not (c := ¬ rest.length < n + 8) (by omega),
      if_neg fun h => hfits h.1]
    rfl

/-- Reading the arguments fails with an error code, not with an abort. -/
theorem custom_of_burnDepositArgs {data : List UInt8} {fault : ProgramFault}
    (h : burnDepositArgs data = .error fault) : ∃ code, fault = .custom code := by
  by_cases hpre : BURN_DEPOSIT_DISC.isPrefixOf data = true
  · obtain ⟨args, rfl⟩ := List.isPrefixOf_iff_prefix.1 hpre
    by_cases hargs : args.length < 4
    · rw [burnDepositArgs, require_of hpre, ok_bind, List.drop_left] at h
      simp only at h
      rw [require_of_not (c := ¬ args.length < 4) (by omega)] at h
      exact ⟨_, (Except.error.inj h).symm⟩
    · rw [← List.take_append_drop 4 args,
        burnDepositArgs_eq (List.length_take_of_le (by omega))] at h
      split_ifs at h
      exact ⟨_, (Except.error.inj h).symm⟩
  · rw [burnDepositArgs, require_of_not hpre] at h
    exact ⟨_, (Except.error.inj h).symm⟩

/-- The Borsh form of a name and an amount, with anything behind it. -/
def Encodes (data name : List UInt8) (amount : ℕ) : Prop :=
  name.length < 2 ^ 32 ∧ amount < 2 ^ 64 ∧ (∃ l, name = Utf8.encode l) ∧
    ∃ rest, data = BURN_DEPOSIT_DISC ++
      (littleEndian 4 name.length ++ (name ++ (littleEndian 8 amount ++ rest)))

theorem burnDepositArgs_of_encodes {data name : List UInt8} {amount : ℕ}
    (h : Encodes data name amount) : burnDepositArgs data = .ok (name, amount) := by
  obtain ⟨hname, hamount, hvalid, rest, rfl⟩ := h
  have hn : ofLittleEndian (littleEndian 4 name.length) = name.length := by
    rw [ofLittleEndian_littleEndian, Nat.mod_eq_of_lt (by omega)]
  rw [burnDepositArgs_eq (length_littleEndian 4 _), hn, List.take_left, List.drop_left,
    List.take_left' (length_littleEndian 8 amount), ofLittleEndian_littleEndian,
    Nat.mod_eq_of_lt (by omega), if_pos]
  refine ⟨?_, Utf8.isValid_iff.2 hvalid⟩
  simp only [List.length_append, length_littleEndian]
  omega

theorem burnDepositArgs_iff {data name : List UInt8} {amount : ℕ} :
    burnDepositArgs data = .ok (name, amount) ↔ Encodes data name amount := by
  refine ⟨fun h => ?_, burnDepositArgs_of_encodes⟩
  have hpre : BURN_DEPOSIT_DISC.isPrefixOf data = true := by
    unfold burnDepositArgs at h
    simp only [bind_eq_ok, require_eq_ok] at h
    exact h.choose_spec.1
  obtain ⟨args, rfl⟩ := List.isPrefixOf_iff_prefix.1 hpre
  have hargs : 4 ≤ args.length := by
    unfold burnDepositArgs at h
    simp only [bind_eq_ok, require_eq_ok, List.drop_left] at h
    obtain ⟨-, -, -, h4, -⟩ := h
    omega
  have hlen : (args.take 4).length = 4 := List.length_take_of_le hargs
  have hself := littleEndian_ofLittleEndian (args.take 4)
  have hlt := ofLittleEndian_lt (args.take 4)
  rw [hlen] at hself hlt
  rw [← List.take_append_drop 4 args] at h ⊢
  rw [burnDepositArgs_eq hlen] at h
  generalize ofLittleEndian (args.take 4) = n at *
  generalize args.drop 4 = rest at *
  split_ifs at h with hok
  simp only [Except.ok.injEq, Prod.mk.injEq] at h
  obtain ⟨rfl, rfl⟩ := h
  have hname : (rest.take n).length = n := List.length_take_of_le (by omega)
  have hbytes : ((rest.drop n).take 8).length = 8 := by
    rw [List.length_take, List.length_drop]
    omega
  have hself8 := littleEndian_ofLittleEndian ((rest.drop n).take 8)
  have hlt8 := ofLittleEndian_lt ((rest.drop n).take 8)
  rw [hbytes] at hself8 hlt8
  refine ⟨by omega, by omega, Utf8.isValid_iff.1 hok.2, (rest.drop n).drop 8, ?_⟩
  rw [hname, hself, hself8, List.take_append_drop, List.take_append_drop]

/-! ## The instruction -/

section

variable {findProgramAddress : List (List UInt8) → Address → Option (Address × UInt8)}
  {programId : Address} {accounts : List AccountView} {data : List UInt8}

/-- The ways the program ends that are not a slice or a sum of its own. -/
def ProgramFault.Checked : ProgramFault → Prop
  | .outOfBounds | .overflow => False
  | .custom _ | .noProgramAddress | .accountBorrowFailed => True

theorem checked_of_expectTokenOwned {acc : AccountView} {fault : ProgramFault}
    (h : expectTokenOwned acc = .error fault) : fault.Checked := by
  simp only [expectTokenOwned, bind_eq_error, require_eq_error] at h
  rcases h with ⟨-, rfl⟩ | ⟨-, -, -, rfl⟩ <;> trivial

theorem checked_of_processInstruction {fault : ProgramFault}
    (h : processInstruction findProgramAddress programId accounts data = .error fault) :
    fault.Checked := by
  unfold processInstruction at h
  rw [bind_eq_error] at h
  rcases h with h | ⟨⟨name, amount⟩, -, h⟩
  · obtain ⟨code, rfl⟩ := custom_of_burnDepositArgs h
    trivial
  · simp only at h
    split at h
    · simp only [bind_eq_error, require_eq_error, found_eq_error, pure, Except.pure, reduceCtorEq,
        and_false, exists_false, or_false] at h
      rcases h with ⟨-, rfl⟩ | ⟨-, -, h⟩
      · trivial
      rcases h with h | ⟨-, -, h⟩
      · exact checked_of_expectTokenOwned h
      rcases h with h | ⟨-, -, h⟩
      · exact checked_of_expectTokenOwned h
      rcases h with ⟨-, rfl⟩ | ⟨-, -, ⟨-, rfl⟩ | ⟨-, -, ⟨-, rfl⟩ | ⟨-, -, ⟨-, rfl⟩ | ⟨-, -, ⟨-, rfl⟩ |
        ⟨-, -, ⟨-, rfl⟩ | ⟨-, -, ⟨-, rfl⟩ | ⟨-, -, -, rfl⟩⟩⟩⟩⟩⟩⟩ <;> trivial
    · cases h
      trivial

/-- A burn of what was read, from the token account of the address derived from the name read. -/
structure Burns (findProgramAddress : List (List UInt8) → Address → Option (Address × UInt8))
    (programId : Address) (name : List UInt8) (amount : ℕ) (call : SignedInvocation) : Prop where
  burn : call.programId = TOKEN_2022_ID ∧ call.data = 8 :: littleEndian 8 amount
  authority : ∃ authority bump ata ataBump mint,
    findProgramAddress [depositSeed, name] programId = some (authority, bump) ∧
    findProgramAddress [authority, TOKEN_2022_ID, mint] ATA_PROGRAM_ID = some (ata, ataBump) ∧
    call.accounts = [⟨ata, true, false⟩, ⟨mint, true, false⟩, ⟨authority, false, true⟩] ∧
    call.seeds = [depositSeed, name, [bump]]

theorem burns_of_processInstruction {call : SignedInvocation}
    (h : processInstruction findProgramAddress programId accounts data = .ok call) :
    ∃ name amount, burnDepositArgs data = .ok (name, amount) ∧ name.length ≤ 16 ∧
      Burns findProgramAddress programId name amount call := by
  unfold processInstruction at h
  rw [bind_eq_ok] at h
  obtain ⟨⟨name, amount⟩, hread, h⟩ := h
  simp only at h
  split at h
  · simp only [bind_eq_ok, require_eq_ok, found_eq_ok, pure_eq_ok, Prod.exists] at h
    obtain ⟨-, -, -, -, -, -, -, -, authority, bump, hauthority, -, hself, ataData, -, -, -, ata,
      ataBump, hata, -, hataSelf, -, hlen, rfl⟩ := h
    rw [hself] at hata
    exact ⟨name, amount, hread, by omega, ⟨rfl, rfl⟩,
      ⟨authority, bump, ata, ataBump, _, hauthority, hata, by rw [hself, hataSelf], rfl⟩⟩
  · cases h

end

/-! ## What the gateway writes -/

theorem burnDepositArgs_burnDepositData {vizAccount : String} {amount : ℕ}
    (hname : (utf8Bytes vizAccount).length ≤ 16) (hamount : amount < 2 ^ 64) :
    burnDepositArgs (burnDepositData vizAccount amount) = .ok (utf8Bytes vizAccount, amount) :=
  burnDepositArgs_of_encodes ⟨by omega, hamount, ⟨_, rfl⟩, [], by rw [List.append_nil]; rfl⟩

theorem size_of_resolveDepositAddress {raw : Option String} {deps : LookupDeps}
    {vizAccount address ata : String}
    (h : resolveDepositAddress raw deps = .ok (.ok vizAccount address ata)) :
    (utf8Bytes vizAccount).length ≤ 16 := by
  unfold resolveDepositAddress at h
  split at h
  · simp at h
  · next v hv =>
    split_ifs at h with hlong
    · simp at h
    · simp only [bind_eq_ok] at h
      obtain ⟨exists_, -, h⟩ := h
      split_ifs at h
      · simp only [pure_eq_ok, LookupResolution.ok.injEq] at h
        rw [MAX_VIZ_ACCOUNT_BYTES, h.1] at hlong
        omega
      · simp at h

/-- Whatever the data and the accounts, no slice and no sum of the program goes wrong, the arguments
are read exactly from their Borsh form, a burn is of what was read, and what the gateway writes for
an account the lookup answered is read back. -/
theorem burn_instruction
    (findProgramAddress : List (List UInt8) → Address → Option (Address × UInt8))
    (programId : Address) :
    (∀ accounts data,
      processInstruction findProgramAddress programId accounts data ≠ .error .outOfBounds ∧
      processInstruction findProgramAddress programId accounts data ≠ .error .overflow) ∧
    (∀ data name amount,
      burnDepositArgs data = .ok (name, amount) ↔ Encodes data name amount) ∧
    (∀ accounts data call,
      processInstruction findProgramAddress programId accounts data = .ok call →
        ∃ name amount, Encodes data name amount ∧ name.length ≤ 16 ∧
          Burns findProgramAddress programId name amount call) ∧
    (∀ raw deps vizAccount address ata amount,
      resolveDepositAddress raw deps = .ok (.ok vizAccount address ata) → amount < 2 ^ 64 →
        burnDepositArgs (burnDepositData vizAccount amount) =
          .ok (utf8Bytes vizAccount, amount)) := by
  refine ⟨fun accounts data => ⟨fun h => ?_, fun h => ?_⟩, fun data name amount => ?_,
    fun accounts data call h => ?_, fun raw deps vizAccount address ata amount h hamount => ?_⟩
  · exact checked_of_processInstruction h
  · exact checked_of_processInstruction h
  · exact burnDepositArgs_iff
  · obtain ⟨name, amount, hread, hlen, hburns⟩ := burns_of_processInstruction h
    exact ⟨name, amount, burnDepositArgs_iff.1 hread, hlen, hburns⟩
  · exact burnDepositArgs_burnDepositData (size_of_resolveDepositAddress h) hamount

/-! A burn of alice's deposit. -/

private def sampleProgramId : Address := List.replicate 32 7

private def sampleMintAddress : Address :=
  [139, 121, 150, 19, 80, 79, 189, 59, 41, 202, 253, 229, 138, 29, 155, 43, 63, 110, 250, 218, 145,
    186, 190, 232, 111, 248, 121, 172, 238, 34, 8, 36]

private def sampleAuthority : Address :=
  [115, 157, 216, 74, 71, 54, 137, 243, 219, 143, 7, 215, 88, 190, 149, 40, 223, 89, 192, 120, 178,
    109, 18, 55, 138, 255, 70, 108, 164, 99, 36, 52]

private def sampleAta : Address :=
  [140, 111, 204, 85, 54, 209, 239, 71, 225, 101, 26, 91, 244, 119, 206, 167, 132, 102, 124, 54, 29,
    74, 23, 201, 139, 183, 55, 66, 62, 36, 189, 15]

/-- The two addresses of alice's deposit. -/
private def sampleDerive (seeds : List (List UInt8)) (programId : Address) :
    Option (Address × UInt8) :=
  if seeds = [depositSeed, utf8Bytes "alice"] ∧ programId = sampleProgramId then
    some (sampleAuthority, 255)
  else if seeds = [sampleAuthority, TOKEN_2022_ID, sampleMintAddress] ∧ programId = ATA_PROGRAM_ID then
    some (sampleAta, 253)
  else none

private def sampleBurnAccounts : List AccountView :=
  [⟨sampleAuthority, SYSTEM_PROGRAM_ID, 0, some []⟩, ⟨sampleMintAddress, TOKEN_2022_ID, 1, some []⟩,
    ⟨sampleAta, TOKEN_2022_ID, 1, some (sampleMintAddress ++ sampleAuthority)⟩,
    ⟨TOKEN_2022_ID, [], 1, some []⟩]

private def sampleBurnCall : SignedInvocation where
  programId := TOKEN_2022_ID
  accounts := [⟨sampleAta, true, false⟩, ⟨sampleMintAddress, true, false⟩, ⟨sampleAuthority, false, true⟩]
  data := [8, 232, 3, 0, 0, 0, 0, 0, 0]
  seeds := [depositSeed, utf8Bytes "alice", [255]]

private def sampleLookup : LookupDeps where
  accountExists := fun account => .ok (account = "alice")
  depositAddress := fun _ => "8mJ"
  depositAta := fun _ => "ATA"

theorem burn_instruction_alice :
    (∃ name amount, Encodes (burnDepositData "alice" 1000) name amount ∧ name.length ≤ 16 ∧
      Burns sampleDerive sampleProgramId name amount sampleBurnCall) ∧
    burnDepositArgs (burnDepositData "alice" 1000) = .ok (utf8Bytes "alice", 1000) := by
  obtain ⟨-, -, hburn, hwrite⟩ := burn_instruction sampleDerive sampleProgramId
  exact ⟨hburn sampleBurnAccounts _ _ (by decide +kernel),
    hwrite (some " ALICE") sampleLookup "alice" "8mJ" "ATA" 1000 (by decide +kernel) (by omega)⟩

end VizGateway
