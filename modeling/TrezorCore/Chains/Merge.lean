import TrezorCore.Chains.SignTx

/-!
# Merging the signatures

What `sign_psbt` makes of the signatures that the device reports on the way. They are collected
in a map, so the last one for an input counts, and each is filed under the key of the input's
first derivation, which is the one `build_input_ack` sends the path of. Whether every input got
one is checked nowhere: the device's last request alone ends the exchange.
-/

namespace TrezorCore.Bitcoin

open OrderedMap
open Script (against)

variable {K : Crates}

/-- The signature a request reports, with the index of its input. -/
def reported (req : TxRequest) : Option (UInt32 × Bytes) :=
  match req.serialized with
  | some ⟨some idx, some sig⟩ => some (idx, sig)
  | _ => none

/-- The last signature that the requests report for an input. -/
def lastReported (reqs : List TxRequest) (i : Nat) : Option Bytes :=
  valueAt (fun idx => idx.toNat == i) (reqs.filterMap reported).reverse

/-! ## The map of signatures -/

theorem indexLess_total : Comparison fun a b : UInt32 => decide (a < b) where
  irrefl a := by simp
  trans a b c := by
    simp only [decide_eq_true_eq, UInt32.lt_iff_toNat_lt]
    omega
  tri a b := by
    simp only [decide_eq_false_iff_not, UInt32.lt_iff_toNat_lt, ← UInt32.toNat_inj]
    omega

theorem one_index (i : Nat) (a b : UInt32) (ha : (a.toNat == i) = true) (hb : (b.toNat == i) = true) : a = b := by
  simp only [beq_iff_eq] at ha hb
  exact UInt32.toNat_inj.1 (ha.trans hb.symm)

theorem collectSignature_eq (req : TxRequest) (sigs : Signatures) :
    collectSignature req sigs =
      match reported req with
      | some (idx, sig) => btreeInsert (fun a b => decide (a < b)) idx sig sigs
      | none => sigs := by
  unfold collectSignature reported
  rcases req.serialized with _ | ⟨_ | idx, _ | sig⟩ <;> rfl

/-- What the map holds for an input is the last signature reported for it. -/
theorem valueAt_foldl (reqs : List TxRequest) (sigs : Signatures) (i : Nat) :
    valueAt (fun idx => idx.toNat == i) (reqs.foldl (fun sigs req => collectSignature req sigs) sigs) =
      (lastReported reqs i).or (valueAt (fun idx => idx.toNat == i) sigs) := by
  induction reqs generalizing sigs with
  | nil => rfl
  | cons req reqs ih =>
    rw [List.foldl_cons, ih, collectSignature_eq, lastReported, lastReported, List.filterMap_cons]
    cases reported req with
    | none => rfl
    | some e =>
      show (valueAt _ _).or (valueAt _ (btreeInsert _ e.1 e.2 sigs)) = _
      rw [valueAt_btreeInsert indexLess_total (one_index i), List.reverse_cons, valueAt_append, valueAt_cons, Option.or_assoc]
      cases e.1.toNat == i <;> rfl

theorem valueAt_collected (reqs : List TxRequest) (i : Nat) :
    valueAt (fun idx => idx.toNat == i) (collected reqs) = lastReported reqs i := by
  rw [collected, valueAt_foldl, valueAt_nil, Option.or_none]

theorem sorted_foldl (reqs : List TxRequest) {sigs : Signatures} (sorted : Sorted (fun a b => decide (a < b)) sigs) :
    Sorted (fun a b => decide (a < b)) (reqs.foldl (fun sigs req => collectSignature req sigs) sigs) := by
  induction reqs generalizing sigs with
  | nil => exact sorted
  | cons req reqs ih =>
    apply ih
    show Sorted _ (collectSignature req sigs)
    rw [collectSignature_eq]
    cases reported req with
    | none => exact sorted
    | some e => exact sorted.btreeInsert indexLess_total

theorem nodup_collected (reqs : List TxRequest) : ((collected reqs).map (·.1)).Nodup :=
  (sorted_foldl reqs List.Pairwise.nil).nodup indexLess_total

/-- The entries of the map are the last signatures. -/
theorem mem_collected {reqs : List TxRequest} {idx : UInt32} {der : Bytes} :
    (idx, der) ∈ collected reqs ↔ lastReported reqs idx.toNat = some der := by
  rw [← valueAt_collected]
  exact mem_iff_valueAt (nodup_collected reqs) (one_index _) (beq_self_eq_true _)

/-! ## One signature -/

/-- A signature that can be filed: its input is there and has a derivation, and it is DER. -/
def Usable (K : Crates) (psbt : Psbt) (i : Nat) (der : Bytes) : Prop :=
  ∃ input origin sig, psbt.inputs[i]? = some input ∧ input.bip32Derivation.head? = some origin ∧
    K.signatureFromDer der = .ok sig

/-- The input with a signature filed under a key. -/
def PsbtInput.filed (input : PsbtInput) (pubkey : Octets 33) (sig : Bytes) : PsbtInput :=
  { input with partialSigs := btreeInsert keyLess ⟨true, pubkey⟩ ⟨sig, true⟩ input.partialSigs }

theorem mergeSignature_ok_iff {psbt signed : Psbt} {idx : UInt32} {der : Bytes} :
    mergeSignature K psbt (idx, der) = .ok signed ↔
      ∃ input origin sig, psbt.inputs[idx.toNat]? = some input ∧ input.bip32Derivation.head? = some origin ∧
        K.signatureFromDer der = .ok sig ∧
        signed = { psbt with inputs := psbt.inputs.set idx.toNat (PsbtInput.filed input origin.pubkey sig) } := by
  unfold mergeSignature
  simp only [Except.bind_eq_ok, orThp_ok]
  constructor
  · rintro ⟨input, found, origin, first, merged⟩
    cases parses : K.signatureFromDer der with
    | error e =>
      rw [parses] at merged
      cases merged
    | ok sig =>
      rw [parses] at merged
      cases merged
      exact ⟨input, origin, sig, found, first, rfl, rfl⟩
  · rintro ⟨input, origin, sig, found, first, parses, rfl⟩
    refine ⟨input, found, origin, first, ?_⟩
    rw [parses]
    rfl

/-- Filing one signature changes neither what is usable nor what the inputs are derived from. -/
theorem usable_after {psbt signed : Psbt} {e : UInt32 × Bytes} (merges : mergeSignature K psbt e = .ok signed) (i : Nat)
    (der : Bytes) : Usable K signed i der ↔ Usable K psbt i der := by
  obtain ⟨input, origin, sig, found, first, -, rfl⟩ := mergeSignature_ok_iff.1 merges
  unfold Usable
  simp only
  by_cases same : e.1.toNat = i
  · subst same
    have there : e.1.toNat < psbt.inputs.length := (List.getElem?_eq_some_iff.1 found).1
    rw [List.getElem?_set_self there, found]
    simp [PsbtInput.filed]
  · rw [List.getElem?_set_ne same]

/-! ## All of them -/

/-- The map is merged exactly when every entry is usable. -/
theorem foldlM_ok_iff (sigs : Signatures) (psbt : Psbt) :
    (∃ signed, sigs.foldlM (mergeSignature K) psbt = .ok signed) ↔ ∀ e ∈ sigs, Usable K psbt e.1.toNat e.2 := by
  induction sigs generalizing psbt with
  | nil => exact ⟨fun _ _ h => absurd h List.not_mem_nil, fun _ => ⟨psbt, rfl⟩⟩
  | cons e sigs ih =>
    simp only [List.foldlM_cons, Except.bind_eq_ok, List.forall_mem_cons]
    constructor
    · rintro ⟨signed, next, merges, later⟩
      obtain ⟨input, origin, sig, found, first, parses, -⟩ := mergeSignature_ok_iff.1 merges
      refine ⟨⟨input, origin, sig, found, first, parses⟩, fun e' member => ?_⟩
      rw [← usable_after merges]
      exact (ih next).1 ⟨signed, later⟩ e' member
    · rintro ⟨⟨input, origin, sig, found, first, parses⟩, rest⟩
      have merges := mergeSignature_ok_iff.2 ⟨input, origin, sig, found, first, parses, rfl⟩
      obtain ⟨signed, later⟩ := (ih _).2 fun e' member => (usable_after merges _ _).2 (rest e' member)
      exact ⟨signed, _, merges, later⟩

/-- An input after the merge: as it was without a signature, else with it under the key of its
first derivation. -/
def MergedInput (K : Crates) (input : PsbtInput) (der : Option Bytes) (signed : PsbtInput) : Prop :=
  match der with
  | none => signed = input
  | some der => ∃ origin sig, input.bip32Derivation.head? = some origin ∧ K.signatureFromDer der = .ok sig ∧
      signed = PsbtInput.filed input origin.pubkey sig

/-- A PSBT after the merge: only inputs have changed, and each by the signature for it. -/
structure Merged (K : Crates) (psbt : Psbt) (last : Nat → Option Bytes) (signed : Psbt) : Prop where
  frame : signed = { psbt with inputs := signed.inputs }
  length : signed.inputs.length = psbt.inputs.length
  input : ∀ i input, psbt.inputs[i]? = some input →
    ∃ after, signed.inputs[i]? = some after ∧ MergedInput K input (last i) after

theorem Merged.of_foldlM {sigs : Signatures} {psbt signed : Psbt} (nodup : (sigs.map (·.1)).Nodup)
    (merges : sigs.foldlM (mergeSignature K) psbt = .ok signed) :
    Merged K psbt (fun i => valueAt (fun idx => idx.toNat == i) sigs) signed := by
  induction sigs generalizing psbt with
  | nil =>
    cases merges
    exact ⟨rfl, rfl, fun i input found => ⟨input, found, rfl⟩⟩
  | cons e sigs ih =>
    rw [List.foldlM_cons, Except.bind_eq_ok] at merges
    obtain ⟨next, one, later⟩ := merges
    obtain ⟨fresh, rest⟩ := List.nodup_cons.1 nodup
    obtain ⟨input, origin, sig, found, first, parses, rfl⟩ := mergeSignature_ok_iff.1 one
    have after := ih rest later
    have there : e.1.toNat < psbt.inputs.length := (List.getElem?_eq_some_iff.1 found).1
    refine ⟨after.frame, by rw [after.length, List.length_set], fun i input' found' => ?_⟩
    rw [valueAt_cons]
    by_cases same : e.1.toNat = i
    · -- the other entries are for other inputs
      subst same
      have none : valueAt (fun idx => idx.toNat == e.1.toNat) sigs = none := by
        rw [valueAt, Option.map_eq_none_iff, List.find?_eq_none]
        intro e' member equal
        have same : e'.1 = e.1 := one_index _ _ _ equal (beq_self_eq_true _)
        exact fresh (List.mem_map.2 ⟨e', member, same⟩)
      cases found.symm.trans found'
      obtain ⟨last, at', merged⟩ := after.input e.1.toNat _ (List.getElem?_set_self there)
      rw [none] at merged
      refine ⟨last, at', ?_⟩
      rw [if_pos (beq_self_eq_true _)]
      exact ⟨origin, sig, first, parses, merged⟩
    · rw [if_neg (by simpa using same)]
      apply after.input i input'
      simp only
      rw [List.getElem?_set_ne same]
      exact found'

/-! ## The call -/

section Call

variable {sessionId : UInt8} {text : String} {coinType : UInt32} {psbt : Psbt}

/-- The call returns a PSBT exactly when the exchange finishes and its signatures merge. -/
theorem signPsbt_ok_iff (parses : K.psbtFromStr text = .ok psbt) (replies : List Reply) (out : String) :
    (against (signPsbt K sessionId text coinType) replies).1 = .ok out ↔
      ∃ reqs signed, exchange K psbt (networkOf coinType) replies = some reqs ∧
        (collected reqs).foldlM (mergeSignature K) psbt = .ok signed ∧ out = K.psbtToString signed := by
  rw [signPsbt_against parses]
  constructor
  · intro returns
    cases ends : (serve K psbt (networkOf coinType) replies []).1 with
    | ok sigs =>
      obtain ⟨reqs, finishes, rfl⟩ := (serve_ok_iff replies [] sigs).1 ends
      rw [ends] at returns
      cases merges : (reqs.foldl (fun sigs req => collectSignature req sigs) []).foldlM (mergeSignature K) psbt with
      | ok signed =>
        simp only [merges, Outcome.ok.injEq] at returns
        exact ⟨reqs, signed, finishes, merges, returns.symm⟩
      | error e => simp [merges] at returns
    | err e => simp [ends] at returns
    | panicked => simp [ends] at returns
    | dropped => simp [ends] at returns
  · rintro ⟨reqs, signed, finishes, merges, rfl⟩
    have ends := (serve_ok_iff replies [] (collected reqs)).2 ⟨reqs, finishes, rfl⟩
    simp only [ends, merges]

/-- An exchange that finishes with a signature that cannot be filed is an error. -/
theorem signPsbt_unusable (parses : K.psbtFromStr text = .ok psbt) {replies : List Reply} {reqs : List TxRequest}
    (finishes : exchange K psbt (networkOf coinType) replies = some reqs) {i : Nat} {der : Bytes}
    (last : lastReported reqs i = some der) (unusable : ¬ Usable K psbt i der) :
    ∃ e, (against (signPsbt K sessionId text coinType) replies).1 = .err e := by
  have ends := (serve_ok_iff replies [] (collected reqs)).2 ⟨reqs, finishes, rfl⟩
  rw [signPsbt_against parses]
  simp only [ends]
  cases merges : (collected reqs).foldlM (mergeSignature K) psbt with
  | error e => exact ⟨e, rfl⟩
  | ok signed =>
    obtain ⟨idx, here, -⟩ := valueAt_some last
    obtain rfl : idx.toNat = i := by simpa using here
    exact absurd ((foldlM_ok_iff _ _).1 ⟨signed, merges⟩ _ (mem_collected.2 last)) unusable

/-- The path that `build_input_ack` sends is the first derivation's. -/
theorem buildInputAck_path {i : Nat} {input : PsbtInput} {origin : KeyOrigin} {ack : TxAckInput}
    (found : psbt.inputs[i]? = some input) (first : input.bip32Derivation.head? = some origin)
    (builds : buildInputAck psbt i = .ok ack) : ack.addressN = origin.path := by
  unfold buildInputAck at builds
  simp only [Except.bind_eq_ok, orThp_ok] at builds
  obtain ⟨txin, -, input', found', amount, -, origin', first', builds⟩ := builds
  cases found.symm.trans found'
  cases first.symm.trans first'
  cases builds
  rfl

end Call

/-! ## Exactness -/

theorem keyLess_order : Comparison keyLess where
  irrefl a := by simp [keyLess]
  trans a b c := by
    unfold keyLess
    cases a.compressed <;> cases b.compressed <;> cases c.compressed <;> simp <;> omega
  tri a b := by
    obtain ⟨ac, ai⟩ := a
    obtain ⟨bc, bi⟩ := b
    unfold keyLess
    by_cases same : ac = bc
    · subst same
      simp only [if_true, decide_eq_false_iff_not]
      intro ab ba
      have reading : Bytes.beNat ai.1 = Bytes.beNat bi.1 := by omega
      have bytes : ai.1 = bi.1 := by
        rw [← Bytes.toBe_beNat ai.1, ← Bytes.toBe_beNat bi.1, reading, ai.2, bi.2]
      rw [Subtype.ext bytes]
    · cases ac <;> cases bc <;> simp at same ⊢

/-- The entry of a key. -/
def entry (key : BitcoinPublicKey) (sigs : List (BitcoinPublicKey × EcdsaSignature)) : Option EcdsaSignature :=
  valueAt (· == key) sigs

theorem entry_btreeInsert (key pk : BitcoinPublicKey) (sig : EcdsaSignature)
    (sigs : List (BitcoinPublicKey × EcdsaSignature)) :
    entry key (btreeInsert keyLess pk sig sigs) = if key = pk then some sig else entry key sigs := by
  have one : ∀ a b : BitcoinPublicKey, (a == key) = true → (b == key) = true → a = b := by
    intro a b ha hb
    rw [eq_of_beq ha, eq_of_beq hb]
  rw [entry, valueAt_btreeInsert keyLess_order one]
  by_cases same : key = pk
  · simp [same]
  · simp [same, Ne.symm same, entry]

/-- **Signatures merge exactly.** -/
theorem signatures_merge_exactly (K : Crates) (sessionId : UInt8) (text : String) (coinType : UInt32) (psbt : Psbt)
    (parses : K.psbtFromStr text = .ok psbt) (replies : List Reply) :
    (∀ out, (against (signPsbt K sessionId text coinType) replies).1 = .ok out →
      ∃ reqs signed, exchange K psbt (networkOf coinType) replies = some reqs ∧ out = K.psbtToString signed ∧
        signed = { psbt with inputs := signed.inputs } ∧ signed.inputs.length = psbt.inputs.length ∧
        ∀ i input, psbt.inputs[i]? = some input →
          ∃ sigs, signed.inputs[i]? = some { input with partialSigs := sigs } ∧
            match lastReported reqs i with
            | none => sigs = input.partialSigs
            | some der => ∃ origin sig, input.bip32Derivation.head? = some origin ∧
                (∀ ack, buildInputAck psbt i = .ok ack → ack.addressN = origin.path) ∧
                K.signatureFromDer der = .ok sig ∧
                sigs = btreeInsert keyLess ⟨true, origin.pubkey⟩ ⟨sig, true⟩ input.partialSigs ∧
                ∀ key, entry key sigs = if key = ⟨true, origin.pubkey⟩ then some ⟨sig, true⟩ else entry key input.partialSigs) ∧
    ∀ reqs, exchange K psbt (networkOf coinType) replies = some reqs →
      (∃ i der, lastReported reqs i = some der ∧
        (psbt.inputs.length ≤ i ∨ (∃ input, psbt.inputs[i]? = some input ∧ input.bip32Derivation = []) ∨
          ∃ e, K.signatureFromDer der = .error e)) →
      ∃ e, (against (signPsbt K sessionId text coinType) replies).1 = .err e := by
  constructor
  · intro out returns
    obtain ⟨reqs, signed, finishes, merges, rfl⟩ := (signPsbt_ok_iff parses replies out).1 returns
    have merged := Merged.of_foldlM (nodup_collected reqs) merges
    refine ⟨reqs, signed, finishes, rfl, merged.frame, merged.length, fun i input found => ?_⟩
    obtain ⟨after, there, how⟩ := merged.input i input found
    simp only [valueAt_collected] at how
    cases last : lastReported reqs i with
    | none =>
      rw [last] at how
      cases how
      exact ⟨_, there, rfl⟩
    | some der =>
      rw [last] at how
      obtain ⟨origin, sig, first, der, rfl⟩ := how
      exact ⟨_, there, origin, sig, first, fun ack => buildInputAck_path found first, der, rfl,
        fun key => entry_btreeInsert key _ _ _⟩
  · rintro reqs finishes ⟨i, der, last, bad⟩
    apply signPsbt_unusable parses finishes last
    rintro ⟨input, origin, sig, found, first, parsed⟩
    rcases bad with outside | ⟨input', found', none⟩ | ⟨e, notDer⟩
    · rw [List.getElem?_eq_none outside] at found
      cases found
    · cases found.symm.trans found'
      rw [none] at first
      cases first
    · rw [notDer] at parsed
      cases parsed

/-- A device that asks for the input and for the payment, and then signs. -/
def signingReplies : List Reply := [asksFor 0 0, asksFor 1 0, finishesSigned]

theorem signatures_merge_exactly_sample :
    (against (signPsbt Crates.signing 1 (walletText walletPsbt) 0) signingReplies).1 = .ok "cHNidP8B0AB" ∧
    ∃ signed, "cHNidP8B0AB" = walletText signed ∧ signed.outputs = walletPsbt.outputs ∧ signed.inputs.length = 1 := by
  have returns : (against (signPsbt Crates.signing 1 (walletText walletPsbt) 0) signingReplies).1 = .ok "cHNidP8B0AB" := by
    decide +kernel
  obtain ⟨reqs, signed, -, text, frame, length, -⟩ :=
    (signatures_merge_exactly Crates.signing 1 _ 0 walletPsbt signing_parses signingReplies).1 _ returns
  refine ⟨returns, signed, text, ?_, length⟩
  rw [frame]

/-! ## Success and completeness -/

/-- An input of the result holds the last signature that the requests report for it. -/
def SignedInRun (K : Crates) (reqs : List TxRequest) (signed : Psbt) (i : Nat) : Prop :=
  ∃ der sig origin input, lastReported reqs i = some der ∧ K.signatureFromDer der = .ok sig ∧
    signed.inputs[i]? = some input ∧ input.bip32Derivation.head? = some origin ∧
    entry ⟨true, origin.pubkey⟩ input.partialSigs = some ⟨sig, true⟩

/-- If the call returns a PSBT, then the device has signed every input in this exchange. -/
def OkOnlyWhenSigned (K : Crates) (sessionId : UInt8) (text : String) (coinType : UInt32) (psbt : Psbt)
    (replies : List Reply) : Prop :=
  ∀ out, (against (signPsbt K sessionId text coinType) replies).1 = .ok out →
    ∃ reqs signed, exchange K psbt (networkOf coinType) replies = some reqs ∧ out = K.psbtToString signed ∧
      ∀ i < psbt.unsignedTx.input.length, SignedInRun K reqs signed i

/-- The device finishes the exchange before it has reported a signature for every input, and
those it has reported are usable. -/
def FinishesEarly (K : Crates) (psbt : Psbt) (network : Network) (replies : List Reply) : Prop :=
  ∃ reqs, exchange K psbt network replies = some reqs ∧
    (∀ i der, lastReported reqs i = some der → Usable K psbt i der) ∧
    ∃ i < psbt.unsignedTx.input.length, lastReported reqs i = none

/-- A merge leaves every input with the signature reported for it. -/
theorem Merged.signed {psbt signed : Psbt} {reqs : List TxRequest} {i : Nat} {der : Bytes}
    (merged : Merged K psbt (lastReported reqs) signed) (last : lastReported reqs i = some der)
    (usable : Usable K psbt i der) : SignedInRun K reqs signed i := by
  obtain ⟨input, -, -, found, -, -⟩ := usable
  obtain ⟨after, there, how⟩ := merged.input i input found
  rw [last] at how
  obtain ⟨origin, sig, first, parses, rfl⟩ := how
  refine ⟨der, sig, origin, _, last, parses, there, first, ?_⟩
  show entry _ (btreeInsert _ _ _ _) = _
  rw [entry_btreeInsert, if_pos rfl]

/-- **Success of the call.** It stands for a fully signed PSBT exactly when the device does not
finish early. -/
theorem ok_only_when_signed_iff (K : Crates) (sessionId : UInt8) (text : String) (coinType : UInt32) (psbt : Psbt)
    (parses : K.psbtFromStr text = .ok psbt) (replies : List Reply) :
    OkOnlyWhenSigned K sessionId text coinType psbt replies ↔ ¬ FinishesEarly K psbt (networkOf coinType) replies := by
  constructor
  · rintro complete ⟨reqs, finishes, usable, i, inside, none⟩
    have every : ∀ e ∈ collected reqs, Usable K psbt e.1.toNat e.2 :=
      fun e member => usable _ _ (mem_collected.1 member)
    obtain ⟨signed, merges⟩ := (foldlM_ok_iff _ _).2 every
    obtain ⟨reqs', signed', finishes', -, all⟩ :=
      complete _ ((signPsbt_ok_iff parses replies _).2 ⟨reqs, signed, finishes, merges, rfl⟩)
    cases finishes.symm.trans finishes'
    obtain ⟨der, -, -, -, last, -⟩ := all i inside
    rw [none] at last
    cases last
  · intro late out returns
    obtain ⟨reqs, signed, finishes, merges, rfl⟩ := (signPsbt_ok_iff parses replies out).1 returns
    have usable : ∀ i der, lastReported reqs i = some der → Usable K psbt i der := by
      intro i der last
      by_contra unusable
      obtain ⟨e, fails⟩ := signPsbt_unusable (K := K) parses finishes last unusable
      rw [returns] at fails
      cases fails
    have merged : Merged K psbt (lastReported reqs) signed := by
      have merged := Merged.of_foldlM (nodup_collected reqs) merges
      simpa only [valueAt_collected] using merged
    refine ⟨reqs, signed, finishes, rfl, fun i inside => ?_⟩
    cases last : lastReported reqs i with
    | none => exact absurd ⟨reqs, finishes, usable, i, inside, last⟩ late
    | some der => exact merged.signed last (usable i der last)

theorem ok_only_when_signed_sample : OkOnlyWhenSigned Crates.signing 1 (walletText walletPsbt) 0 walletPsbt signingReplies := by
  apply (ok_only_when_signed_iff Crates.signing 1 _ 0 walletPsbt signing_parses signingReplies).2
  rintro ⟨reqs, finishes, -, i, inside, none⟩
  have last : (exchange Crates.signing walletPsbt .bitcoin signingReplies).map (lastReported · 0) =
      some (some [0x30, 0x41, 0x42]) := by decide +kernel
  obtain rfl : i = 0 := Nat.lt_one_iff.1 inside
  rw [show exchange Crates.signing walletPsbt .bitcoin signingReplies = some reqs from finishes, Option.map_some, none] at last
  cases last

/-- A `TxRequest` with nothing in it, not even a type, is the device's first answer: the call
returns the PSBT as it came in. -/
theorem empty_request_succeeds :
    (against (signPsbt Crates.signing 1 (walletText walletPsbt) 0) [(BTC_TX_REQUEST, [])]).1 = .ok (walletText walletPsbt) ∧
    ¬ OkOnlyWhenSigned Crates.signing 1 (walletText walletPsbt) 0 walletPsbt [(BTC_TX_REQUEST, [])] := by
  have returns : (against (signPsbt Crates.signing 1 (walletText walletPsbt) 0) [(BTC_TX_REQUEST, [])]).1 =
      .ok (walletText walletPsbt) := by decide +kernel
  refine ⟨returns, fun complete => ?_⟩
  obtain ⟨reqs, signed, finishes, -, all⟩ := complete _ returns
  have none : (exchange Crates.signing walletPsbt .bitcoin [(BTC_TX_REQUEST, [])]).map (lastReported · 0) = some none := by
    decide +kernel
  obtain ⟨der, -, -, -, last, -⟩ := all 0 Nat.zero_lt_one
  rw [show exchange Crates.signing walletPsbt .bitcoin [(BTC_TX_REQUEST, [])] = some reqs from finishes, Option.map_some,
    last] at none
  cases none

end TrezorCore.Bitcoin
