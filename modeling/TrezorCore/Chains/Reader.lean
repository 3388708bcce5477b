import TrezorCore.Chains.Envelope

/-!
# The RLP reader

`rlp_read`, `rlp_read_len` and `rlp_decode_list` of `chains/ethereum.rs` with everything that can
go wrong in them: the position is a variable that the callee moves, machine arithmetic is checked,
a slice out of range panics, and the items of a list are read in a loop. No run panics, the loop
ends, and what comes back is what stands in the buffer, one item behind the other.
-/

namespace TrezorCore.Ethereum

/-! ## Items in a buffer -/

/-- A header that announces the length of a payload. The length need not be minimal. -/
inductive Announces (isList : Bool) : Bytes → Nat → Prop where
  | short {len : Nat} (small : len < 56) : Announces isList [UInt8.ofNat (kindOf isList + len)] len
  | long {digits : Bytes} (some : 0 < digits.length) (few : digits.length ≤ 8) :
      Announces isList (UInt8.ofNat (kindOf isList + 55 + digits.length) :: digits) (Bytes.beNat digits)

theorem Announces.header_pos {isList : Bool} {header : Bytes} {len : Nat} (announced : Announces isList header len) :
    0 < header.length := by
  cases announced with
  | short => exact Nat.one_pos
  | long => exact Nat.succ_pos _

/-- An item as it stands in a buffer: a byte below 128 without a header, or a payload behind a
header that announces its length. -/
structure Encoded where
  isList : Bool
  header : Bytes
  payload : Bytes
  spelled : (isList = false ∧ header = [] ∧ ∃ b, b < 0x80 ∧ payload = [b]) ∨ Announces isList header payload.length

def Encoded.bytes (item : Encoded) : Bytes := item.header ++ item.payload

/-- An item takes at least a byte. -/
theorem Encoded.bytes_pos (item : Encoded) : 0 < item.bytes.length := by
  unfold Encoded.bytes
  rw [List.length_append]
  obtain ⟨-, -, b, -, own⟩ | announced := item.spelled
  · rw [own]
    exact Nat.succ_pos _
  · exact Nat.lt_add_right _ announced.header_pos

/-- An item stands in a buffer from one position to another. -/
def Encoded.At (item : Encoded) (buf : Bytes) (pos stop : Nat) : Prop :=
  ∃ front rest, buf = front ++ item.bytes ++ rest ∧ front.length = pos ∧ stop = pos + item.bytes.length

theorem Encoded.At.drop {item : Encoded} {buf : Bytes} {pos stop : Nat} (stands : item.At buf pos stop) :
    pos < stop ∧ stop ≤ buf.length ∧ buf.drop pos = item.bytes ++ buf.drop stop := by
  obtain ⟨front, rest, rfl, rfl, rfl⟩ := stands
  have some := item.bytes_pos
  refine ⟨by omega, ?_, ?_⟩
  · simp only [List.length_append]
    omega
  · rw [← List.length_append, List.drop_left, List.append_assoc, List.drop_left]

theorem Encoded.At.payload_le {item : Encoded} {buf : Bytes} {pos stop : Nat} (stands : item.At buf pos stop) :
    item.payload.length ≤ buf.length := by
  obtain ⟨front, rest, rfl, -, -⟩ := stands
  unfold Encoded.bytes
  simp only [List.length_append]
  omega

/-! ## What a read returns -/

theorem checkedAdd_eq {a b c : Nat} (sum : checkedAdd a b = some c) : c = a + b := by
  unfold checkedAdd at sum
  split at sum
  · exact (Option.some.inj sum).symm
  · cases sum

/-- A length is read from the bytes behind the position. -/
theorem rlpReadLen_ok {buf : Bytes} {pos n len stop : Nat} (few : n ≤ 8) (reads : rlpReadLen buf pos n = .ok (len, stop)) :
    ∃ digits, digits.length = n ∧ buf.drop pos = digits ++ buf.drop stop ∧ len = Bytes.beNat digits ∧ stop = pos + n := by
  unfold rlpReadLen at reads
  split at reads
  · cases reads
  · next sum =>
    obtain rfl := checkedAdd_eq sum
    split at reads
    · cases reads
    · next inside =>
      cases reads
      have length : ((buf.drop pos).take n).length = n := by
        rw [List.length_take, List.length_drop]
        omega
      have small : Bytes.beNat ((buf.drop pos).take n) < 2 ^ 64 := by
        calc Bytes.beNat ((buf.drop pos).take n) < 256 ^ n := by
              have bound := Bytes.beNat_lt ((buf.drop pos).take n)
              rwa [length] at bound
          _ ≤ 256 ^ 8 := Nat.pow_le_pow_right (by decide) few
          _ = 2 ^ 64 := by decide
      refine ⟨(buf.drop pos).take n, length, ?_, ?_, rfl⟩
      · rw [← List.drop_drop, List.take_append_drop]
      · rw [foldl_len, Nat.mod_eq_of_lt small]

/-- The header that starts with a byte, and what it announces. -/
theorem rlpHeader_ok {buf : Bytes} {pos len stop : Nat} {b : UInt8} {isList : Bool} (headed : ¬ b ≤ 0x7f)
    (reads : rlpHeader buf pos b = .ok (isList, len, stop)) :
    ∃ digits, Announces isList (b :: digits) len ∧ buf.drop pos = digits ++ buf.drop stop ∧ stop = pos + digits.length := by
  have octet : b.toNat < 256 := b.toNat_lt
  have upTo : ∀ c : UInt8, b ≤ c ↔ b.toNat ≤ c.toNat := fun c => UInt8.le_iff_toNat_le
  have spelled : ∀ n, b.toNat = n → b = UInt8.ofNat n := by
    rintro n rfl
    rw [UInt8.ofNat_toNat]
  -- the length in the byte itself
  have short : ∀ n, b.toNat = kindOf isList + n → n < 56 → Announces isList [b] n := by
    intro n same small
    rw [spelled _ same]
    exact .short small
  -- the length in the bytes behind
  have long : ∀ n, b.toNat = kindOf isList + 55 + n → 0 < n → n ≤ 8 → rlpReadLen buf pos n = .ok (len, stop) →
      ∃ digits, Announces isList (b :: digits) len ∧ buf.drop pos = digits ++ buf.drop stop ∧ stop = pos + digits.length := by
    intro n same some few read
    obtain ⟨digits, length, front, rfl, rfl⟩ := rlpReadLen_ok few read
    refine ⟨digits, ?_, front, by rw [length]⟩
    rw [spelled _ same, ← length]
    exact .long (by omega) (by omega)
  have bounds : ¬ b.toNat ≤ 0x7f := by
    rwa [upTo] at headed
  unfold rlpHeader at reads
  simp only [upTo, UInt8.reduceToNat] at reads
  split at reads
  · simp only [Except.ok.injEq, Prod.mk.injEq] at reads
    obtain ⟨rfl, rfl, rfl⟩ := reads
    exact ⟨[], short _ (by simp [kindOf]; omega) (by omega), rfl, rfl⟩
  split at reads
  · obtain ⟨⟨_, _⟩, read, same⟩ := Except.bind_eq_ok.1 reads
    cases same
    exact long _ (by simp [kindOf]; omega) (by omega) (by omega) read
  split at reads
  · simp only [Except.ok.injEq, Prod.mk.injEq] at reads
    obtain ⟨rfl, rfl, rfl⟩ := reads
    exact ⟨[], short _ (by simp [kindOf]; omega) (by omega), rfl, rfl⟩
  · obtain ⟨⟨_, _⟩, read, same⟩ := Except.bind_eq_ok.1 reads
    cases same
    exact long _ (by simp [kindOf]; omega) (by omega) (by omega) read

/-- What a read returns is an item that stands between the old position and the new one. -/
theorem rlpRead_ok {buf payload : Bytes} {pos stop : Nat} {isList : Bool}
    (reads : rlpRead buf pos = .ok (isList, payload, stop)) :
    ∃ item : Encoded, item.isList = isList ∧ item.payload = payload ∧ item.At buf pos stop := by
  unfold rlpRead at reads
  split at reads
  · cases reads
  · next b first =>
    obtain ⟨inside, rfl⟩ := List.getElem?_eq_some_iff.1 first
    have front : (buf.take pos).length = pos := by
      rw [List.length_take]
      omega
    have whole : buf = buf.take pos ++ buf[pos] :: buf.drop (pos + 1) := by
      rw [← List.drop_eq_getElem_cons inside, List.take_append_drop]
    split at reads
    · next low =>
      cases reads
      have small : buf[pos] < 0x80 := by
        rw [UInt8.le_iff_toNat_le] at low
        rw [UInt8.lt_iff_toNat_lt]
        exact Nat.lt_succ_of_le low
      refine ⟨⟨false, [], [buf[pos]], .inl ⟨rfl, rfl, _, small, rfl⟩⟩, rfl, rfl, _, buf.drop (pos + 1), ?_, front, rfl⟩
      rw [List.append_assoc]
      exact whole
    · next headed =>
      obtain ⟨⟨_, len, middle⟩, header, reads⟩ := Except.bind_eq_ok.1 reads
      obtain ⟨digits, announced, behind, rfl⟩ := rlpHeader_ok headed header
      simp only at reads
      split at reads
      · cases reads
      · next sum =>
        obtain rfl := checkedAdd_eq sum
        split at reads
        · cases reads
        · next fits =>
          simp only [Except.ok.injEq, Prod.mk.injEq] at reads
          obtain ⟨rfl, rfl, rfl⟩ := reads
          have length : ((buf.drop (pos + 1 + digits.length)).take len).length = len := by
            rw [List.length_take, List.length_drop]
            omega
          refine ⟨⟨_, buf[pos] :: digits, (buf.drop (pos + 1 + digits.length)).take len, .inr (by rwa [length])⟩, rfl, rfl,
            buf.take pos, (buf.drop (pos + 1 + digits.length)).drop len, ?_, front, ?_⟩
          · conv_lhs => rw [whole, behind]
            simp [Encoded.bytes]
          · simp only [Encoded.bytes, List.length_append, List.length_cons, length]
            omega

/-- The items of a list fill it: each starts where the one before ended. -/
theorem rlpItems_ok {payload : Bytes} : ∀ {fuel pos : Nat} {items : List Bytes}, payload.length - pos ≤ fuel →
    rlpItems payload fuel pos = .ok items →
    ∃ parts : List Encoded, payload.drop pos = parts.flatMap Encoded.bytes ∧ items = parts.map Encoded.payload := by
  intro fuel
  induction fuel with
  | zero =>
    intro pos items enough reads
    cases reads
    exact ⟨[], List.drop_of_length_le (by omega), rfl⟩
  | succ fuel ih =>
    intro pos items enough reads
    unfold rlpItems at reads
    split at reads
    · next more =>
      obtain ⟨⟨isList, payload', stop⟩, read, reads⟩ := Except.bind_eq_ok.1 reads
      obtain ⟨items', rest, same⟩ := Except.bind_eq_ok.1 reads
      cases same
      obtain ⟨item, -, rfl, stands⟩ := rlpRead_ok read
      obtain ⟨forward, inside, whole⟩ := stands.drop
      obtain ⟨parts, filled, rfl⟩ := ih (by omega) rest
      refine ⟨item :: parts, ?_, rfl⟩
      rw [whole, filled, List.flatMap_cons]
    · cases reads
      exact ⟨[], List.drop_of_length_le (by omega), rfl⟩

/-- A decoded list stands at the front of the buffer, and the items fill its payload. -/
theorem rlpDecodeList_ok {buf : Bytes} {items : List Bytes} (reads : rlpDecodeList buf = .ok items) :
    ∃ (list : Encoded) (rest : Bytes) (parts : List Encoded), list.isList = true ∧ buf = list.bytes ++ rest ∧
      list.payload = parts.flatMap Encoded.bytes ∧ items = parts.map Encoded.payload := by
  unfold rlpDecodeList at reads
  obtain ⟨⟨isList, payload, stop⟩, read, reads⟩ := Except.bind_eq_ok.1 reads
  obtain ⟨list, rfl, rfl, stands⟩ := rlpRead_ok read
  obtain ⟨-, -, whole⟩ := stands.drop
  simp only at reads
  split at reads
  · next isList =>
    obtain ⟨parts, filled, same⟩ := rlpItems_ok (by omega) reads
    exact ⟨list, buf.drop stop, parts, isList, whole, filled, same⟩
  · cases reads

/-! ## The reader as it runs -/

namespace Checked
open Comp (Computes)

/-- A function that moves `*pos`. -/
abbrev Reader := Comp Nat TrezorError

/-- `+` on `usize`. -/
def add (a b : Nat) : Reader Nat := if a + b < 2 ^ 64 then pure (a + b) else .panic

/-- `-` on `u8`. -/
def sub (a b : UInt8) : Reader UInt8 := if b ≤ a then pure (a - b) else .panic

/-- `&buf[start..stop]`. -/
def slice (buf : Bytes) (start stop : Nat) : Reader Bytes :=
  if start ≤ stop ∧ stop ≤ buf.length then pure ((buf.drop start).take (stop - start)) else .panic

/-- `*pos = stop`. -/
def seek (stop : Nat) : Reader Unit := .modify fun _ => stop

/-- An `n`-byte big-endian length prefix. -/
def rlpReadLen (buf : Bytes) (n : Nat) : Reader Nat := do
  let pos ← .get
  match checkedAdd pos n with
  | none => .fail (.thp "RLP length-prefix overflow")
  | some stop =>
    if buf.length < stop then .fail (.thp "RLP length-prefix exceeds buffer")
    else do
      let digits ← slice buf pos stop
      seek stop
      -- a shift by 8 never panics
      pure (digits.foldl (fun len x => len * 256 % 2 ^ 64 ||| x.toNat) 0)

/-- The kind of an item and the length of its payload, from its first byte. -/
def rlpHeader (buf : Bytes) (b : UInt8) : Reader (Bool × Nat) :=
  if b ≤ 0xb7 then do
    let len ← sub b 0x80
    pure (false, len.toNat)
  else if b ≤ 0xbf then do
    let n ← sub b 0xb7
    let len ← rlpReadLen buf n.toNat
    pure (false, len)
  else if b ≤ 0xf7 then do
    let len ← sub b 0xc0
    pure (true, len.toNat)
  else do
    let n ← sub b 0xf7
    let len ← rlpReadLen buf n.toNat
    pure (true, len)

def rlpRead (buf : Bytes) : Reader (Bool × Bytes) := do
  let pos ← .get
  match buf[pos]? with
  | none => .fail (.thp "RLP truncated")
  | some b => do
    seek (← add pos 1)
    if b ≤ 0x7f then pure (false, [b])
    else do
      let (isList, len) ← rlpHeader buf b
      let pos ← .get
      match checkedAdd pos len with
      | none => .fail (.thp "RLP length overflow")
      | some stop =>
        if buf.length < stop then .fail (.thp "RLP item length exceeds buffer")
        else do
          let payload ← slice buf pos stop
          seek stop
          pure (isList, payload)

/-- A turn of the `while` loop: an item is pushed, or the list is at its end. -/
def rlpItem (payload : Bytes) (items : List Bytes) : Reader (List Bytes ⊕ List Bytes) := do
  let ipos ← .get
  if ipos < payload.length then do
    let (_, item) ← rlpRead payload
    pure (.inl (items ++ [item]))
  else pure (.inr items)

def rlpItems (payload : Bytes) : List Bytes → Reader (List Bytes) :=
  .loop (fun ipos => payload.length - ipos) (rlpItem payload)

def rlpDecodeList (buf : Bytes) : Comp Unit TrezorError (List Bytes) := do
  let ((isList, payload), _) ← .runLocal (rlpRead buf) 0
  if isList then do
    let (items, _) ← .runLocal (rlpItems payload []) 0
    pure items
  else .fail (.thp "EIP-1559 envelope body is not an RLP list")

theorem add_eq {a b : Nat} (fits : a + b < 2 ^ 64) : add a b = pure (a + b) := if_pos fits

theorem sub_eq {a b : UInt8} (fits : b ≤ a) : sub a b = pure (a - b) := if_pos fits

theorem slice_eq {buf : Bytes} {start stop : Nat} (forward : start ≤ stop) (inside : stop ≤ buf.length) :
    slice buf start stop = pure ((buf.drop start).take (stop - start)) := if_pos ⟨forward, inside⟩

theorem rlpReadLen_computes (buf : Bytes) (n pos : Nat) : Computes (rlpReadLen buf n) pos (Ethereum.rlpReadLen buf pos n) := by
  unfold Ethereum.rlpReadLen rlpReadLen
  apply Computes.step rfl
  cases sum : checkedAdd pos n with
  | none => exact .error rfl
  | some stop =>
    obtain rfl := checkedAdd_eq sum
    simp only
    split
    · exact .error rfl
    · rw [slice_eq (Nat.le_add_right pos n) (by omega), Nat.add_sub_cancel_left, Comp.pure_bind]
      exact Computes.step rfl (.ok rfl)

/-- The position stands last in a plain result. -/
def placed {α β : Type} : α × β × Nat → (α × β) × Nat := fun r => ((r.1, r.2.1), r.2.2)

theorem rlpHeader_computes (buf : Bytes) (pos : Nat) {b : UInt8} (headed : ¬ b ≤ 0x7f) :
    Computes (rlpHeader buf b) pos ((Ethereum.rlpHeader buf pos b).map placed) := by
  have upTo : ∀ c : UInt8, b ≤ c ↔ b.toNat ≤ c.toNat := fun c => UInt8.le_iff_toNat_le
  have difference : ∀ (c : UInt8) (n : Nat), c.toNat = n → n ≤ b.toNat → sub b c = pure (b - c) ∧ (b - c).toNat = b.toNat - n := by
    rintro c n rfl le
    have le : c ≤ b := UInt8.le_iff_toNat_le.2 le
    exact ⟨sub_eq le, UInt8.toNat_sub_of_le _ _ le⟩
  -- the length in the byte itself
  have short : ∀ (isList : Bool) (c : UInt8) (n : Nat), c.toNat = n → n ≤ b.toNat →
      Computes (sub b c >>= fun len => pure (isList, len.toNat)) pos ((Except.ok (isList, b.toNat - n, pos)).map placed) := by
    intro isList c n kind le
    obtain ⟨fits, number⟩ := difference c n kind le
    rw [fits, ← number]
    exact .ok rfl
  -- the length in the bytes behind
  have long : ∀ (isList : Bool) (c : UInt8) (n : Nat), c.toNat = n → n ≤ b.toNat →
      Computes (sub b c >>= fun n => rlpReadLen buf n.toNat >>= fun len => pure (isList, len)) pos
        ((Ethereum.rlpReadLen buf pos (b.toNat - n) >>= fun r => .ok (isList, r)).map placed) := by
    intro isList c n kind le
    obtain ⟨fits, number⟩ := difference c n kind le
    have read := rlpReadLen_computes buf (b - c).toNat pos
    rw [fits, ← number, Comp.pure_bind]
    generalize Ethereum.rlpReadLen buf pos (b - c).toNat = r at read ⊢
    cases read with
    | error run => exact .stop run
    | ok run => exact .step run (.ok rfl)
  rw [upTo] at headed
  simp only [UInt8.reduceToNat] at headed
  unfold Ethereum.rlpHeader rlpHeader
  simp only [upTo, UInt8.reduceToNat]
  split
  · exact short false 0x80 128 rfl (by omega)
  split
  · exact long false 0xb7 183 rfl (by omega)
  split
  · exact short true 0xc0 192 rfl (by omega)
  · exact long true 0xf7 247 rfl (by omega)

/-- A read runs as the plain function says. The length of a slice is a `usize`. -/
theorem rlpRead_computes {buf : Bytes} (fits : buf.length < 2 ^ 64) (pos : Nat) :
    Computes (rlpRead buf) pos ((Ethereum.rlpRead buf pos).map placed) := by
  unfold Ethereum.rlpRead rlpRead
  apply Computes.step rfl
  cases first : buf[pos]? with
  | none => exact .error rfl
  | some b =>
    obtain ⟨inside, -⟩ := List.getElem?_eq_some_iff.1 first
    simp only
    rw [add_eq (by omega), Comp.pure_bind]
    apply Computes.step rfl
    split
    · exact .ok rfl
    · next headed =>
      have header := rlpHeader_computes buf (pos + 1) headed
      generalize Ethereum.rlpHeader buf (pos + 1) b = r at header ⊢
      cases r with
      | error e =>
        cases header with
        | error run => exact .stop run
      | ok r =>
        obtain ⟨isList, len, middle⟩ := r
        cases header with
        | ok run =>
          apply Computes.step run
          apply Computes.step rfl
          rw [Except.ok_bind]
          simp only
          cases sum : checkedAdd middle len with
          | none => exact .error rfl
          | some stop =>
            obtain rfl := checkedAdd_eq sum
            simp only
            split
            · exact .error rfl
            · rw [slice_eq (Nat.le_add_right middle len) (by omega), Nat.add_sub_cancel_left, Comp.pure_bind]
              exact Computes.step rfl (.ok rfl)

/-- A read fails as the plain function does, or it returns an item and has moved behind it. -/
theorem rlpRead_cases {buf : Bytes} (fits : buf.length < 2 ^ 64) (pos : Nat) :
    (∃ e, Ethereum.rlpRead buf pos = .error e ∧ ((rlpRead buf).run pos).1 = .err e) ∨
    ∃ (item : Encoded) (stop : Nat), Ethereum.rlpRead buf pos = .ok (item.isList, item.payload, stop) ∧
      (rlpRead buf).run pos = (.ok (item.isList, item.payload), stop) ∧ item.At buf pos stop := by
  have computes := rlpRead_computes fits pos
  cases reads : Ethereum.rlpRead buf pos with
  | error e =>
    rw [reads] at computes
    cases computes with
    | error run => exact .inl ⟨e, rfl, run⟩
  | ok r =>
    obtain ⟨isList, payload, stop⟩ := r
    obtain ⟨item, rfl, rfl, stands⟩ := rlpRead_ok reads
    rw [reads] at computes
    cases computes with
    | ok run => exact .inr ⟨item, stop, rfl, run, stands⟩

theorem rlpItem_more {payload : Bytes} {ipos : Nat} (more : ipos < payload.length) (items : List Bytes) :
    (rlpItem payload items).run ipos = (rlpRead payload >>= fun r => pure (.inl (items ++ [r.2])) : Reader _).run ipos := by
  unfold rlpItem
  rw [Comp.run_get_bind, if_pos more]

theorem rlpItem_done {payload : Bytes} {ipos : Nat} (done : ¬ ipos < payload.length) (items : List Bytes) :
    (rlpItem payload items).run ipos = (.ok (.inr items), ipos) := by
  unfold rlpItem
  rw [Comp.run_get_bind, if_neg done, Comp.run_pure]

section Loop

variable {payload : Bytes} (fits : payload.length < 2 ^ 64)

include fits

/-- The loop is the source's: it has no bound of its own, for each turn moves the position. -/
theorem rlpItems_eq (items : List Bytes) :
    rlpItems payload items = rlpItem payload items >>= Sum.elim (rlpItems payload) pure := by
  apply Comp.loop_eq
  intro items ipos items' ipos' turn
  by_cases more : ipos < payload.length
  · rw [rlpItem_more more] at turn
    obtain ⟨r, stop, read, rest⟩ := Comp.bind_eq_ok turn
    cases rest
    obtain ⟨e, -, run⟩ | ⟨item, stop, -, run, stands⟩ := rlpRead_cases fits ipos
    · rw [read] at run
      cases run
    · cases read.symm.trans run
      have := stands.drop.1
      omega
  · rw [rlpItem_done more] at turn
    cases turn

theorem rlpItems_done {ipos : Nat} (done : ¬ ipos < payload.length) (items : List Bytes) :
    (rlpItems payload items).run ipos = (.ok items, ipos) := by
  rw [rlpItems_eq fits, Comp.bind_ok (rlpItem_done done items)]
  rfl

/-- The loop ends as the plain recursion does: it never stops for a bound, and never panics. -/
theorem rlpItems_computes : ∀ (fuel ipos : Nat) (items : List Bytes), payload.length - ipos ≤ fuel →
    ((rlpItems payload items).run ipos).1 = .ofExcept ((Ethereum.rlpItems payload fuel ipos).map (items ++ ·)) := by
  intro fuel
  induction fuel with
  | zero =>
    intro ipos items enough
    rw [rlpItems_done fits (by omega)]
    show _ = Outcome.ok (items ++ [])
    rw [List.append_nil]
  | succ fuel ih =>
    intro ipos items enough
    unfold Ethereum.rlpItems
    split
    · next more =>
      rw [rlpItems_eq fits, Comp.run_bind, rlpItem_more more]
      obtain ⟨e, reads, run⟩ | ⟨item, stop, reads, run, stands⟩ := rlpRead_cases fits ipos
      · rw [reads, Comp.bind_err (Comp.run_of_outcome run)]
        rfl
      · have moved := stands.drop.1
        rw [reads, Comp.bind_ok run]
        show ((rlpItems payload (items ++ [item.payload])).run stop).1 = _
        rw [ih stop _ (by omega), Except.ok_bind]
        simp only
        cases Ethereum.rlpItems payload fuel stop with
        | error e => rfl
        | ok rest =>
          show Outcome.ok (items ++ [item.payload] ++ rest) = Outcome.ok (items ++ item.payload :: rest)
          rw [List.append_assoc, List.singleton_append]
    · next done =>
      rw [rlpItems_done fits done]
      show _ = Outcome.ok (items ++ [])
      rw [List.append_nil]

end Loop

/-- Decoding a list ends as the plain function says. -/
theorem rlpDecodeList_computes {buf : Bytes} (fits : buf.length < 2 ^ 64) :
    ((rlpDecodeList buf).run ()).1 = .ofExcept (Ethereum.rlpDecodeList buf) := by
  unfold Ethereum.rlpDecodeList rlpDecodeList
  obtain ⟨e, reads, run⟩ | ⟨item, stop, reads, run, stands⟩ := rlpRead_cases fits 0
  · rw [reads, Comp.bind_err (Comp.runLocal_err run ())]
    rfl
  · rw [reads, Comp.bind_ok (Comp.runLocal_ok run ()), Except.ok_bind]
    simp only
    split
    · have inner : item.payload.length < 2 ^ 64 := stands.payload_le.trans_lt fits
      have items := rlpItems_computes inner item.payload.length 0 [] (by omega)
      generalize Ethereum.rlpItems item.payload item.payload.length 0 = r at items ⊢
      cases r with
      | error e =>
        rw [Comp.bind_err (Comp.runLocal_err items ())]
        rfl
      | ok parts =>
        rw [Comp.bind_ok (Comp.runLocal_ok (Comp.run_of_outcome items) ())]
        rfl
    · rfl

end Checked

/-- **Reading consumes exactly its input.** At every position a read fails, or it returns an item that
stands between the old position and the new one. Decoding a list, whose loop is the source's
`while`, fails, or the buffer starts with a list and the items fill its payload one behind the
other. -/
theorem reading_consumes_exactly (buf : Bytes) (fits : buf.length < 2 ^ 64) :
    (∀ pos, (∃ e, ((Checked.rlpRead buf).run pos).1 = .err e) ∨
      ∃ isList payload pos', (Checked.rlpRead buf).run pos = (.ok (isList, payload), pos') ∧ pos < pos' ∧ pos' ≤ buf.length ∧
        ∃ item : Encoded, item.isList = isList ∧ item.payload = payload ∧ item.At buf pos pos') ∧
    (∀ items, Checked.rlpItems buf items = Checked.rlpItem buf items >>= Sum.elim (Checked.rlpItems buf) pure) ∧
    ((∃ e, ((Checked.rlpDecodeList buf).run ()).1 = .err e) ∨
      ∃ items, ((Checked.rlpDecodeList buf).run ()).1 = .ok items ∧
        ∃ (list : Encoded) (rest : Bytes) (parts : List Encoded), list.isList = true ∧ buf = list.bytes ++ rest ∧
          list.payload = parts.flatMap Encoded.bytes ∧ items = parts.map Encoded.payload) := by
  refine ⟨?_, Checked.rlpItems_eq fits, ?_⟩
  · intro pos
    obtain ⟨e, -, run⟩ | ⟨item, stop, -, run, stands⟩ := Checked.rlpRead_cases fits pos
    · exact .inl ⟨e, run⟩
    · obtain ⟨forward, inside, -⟩ := stands.drop
      exact .inr ⟨_, _, stop, run, forward, inside, item, rfl, rfl, stands⟩
  · have computes := Checked.rlpDecodeList_computes fits
    cases reads : rlpDecodeList buf with
    | error e =>
      rw [reads] at computes
      exact .inl ⟨e, computes⟩
    | ok items =>
      rw [reads] at computes
      exact .inr ⟨items, computes, rlpDecodeList_ok reads⟩

/-- A number and an empty string. -/
theorem reading_consumes_exactly_sample :
    ∃ (list : Encoded) (rest : Bytes) (parts : List Encoded), list.isList = true ∧ [0xc2, 0x05, 0x80] = list.bytes ++ rest ∧
      list.payload = parts.flatMap Encoded.bytes ∧ [[0x05], []] = parts.map Encoded.payload := by
  have run : ((Checked.rlpDecodeList [0xc2, 0x05, 0x80]).run ()).1 = .ok [[0x05], []] := by decide +kernel
  obtain ⟨-, -, ⟨e, failed⟩ | ⟨items, decoded, stands⟩⟩ := reading_consumes_exactly [0xc2, 0x05, 0x80] (by decide)
  · rw [run] at failed
    cases failed
  · rw [run] at decoded
    cases decoded
    exact stands

end TrezorCore.Ethereum
