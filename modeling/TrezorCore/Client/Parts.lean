import TrezorCore.Client.Interleaving

/-!
# What calls are made of

Every method is put together from a few parts: reading, writing, drawing, recording, looking at
and changing what it owns, and what goes on inside another call. A property of calls that these
have, and that putting together keeps, is one of every method.
-/

namespace TrezorCore

/-- The packet of a write. -/
def Event.packet? : Event → Option Bytes
  | .wrote packet => some packet
  | _ => none

/-- `y` is the call `x` on a value inside of what it owns: `look` finds that value, and `finish` is what
`y` makes of the end of `x`. -/
structure Inside {γ δ α β : Type} (x : Io δ α) (y : Io γ β) where
  look : γ → Option δ
  stuck : γ → Outcome TrezorError β
  finish : γ → Outcome TrezorError α → δ → Outcome TrezorError β × γ
  missing : ∀ h, look h.own = none → y.run h = (stuck h.own, h)
  found : ∀ h d, look h.own = some d → y.run h =
    ((finish h.own (x.run ⟨d, h.wire⟩).1 (x.run ⟨d, h.wire⟩).2.own).1,
      ⟨(finish h.own (x.run ⟨d, h.wire⟩).1 (x.run ⟨d, h.wire⟩).2.own).2, (x.run ⟨d, h.wire⟩).2.wire⟩)
  dropped : ∀ g d, (finish g .dropped d).1 = .dropped
  value : ∀ g o d b, (finish g o d).1 = .ok b → ∃ a, o = .ok a

namespace Inside

variable {γ δ α : Type}

def runOwned (x : Io δ α) (d : δ) : Inside x (Io.runOwned x d : Io γ (α × δ)) where
  look _ := some d
  stuck _ := .panicked
  finish g o d' := (match o with
    | .ok a => .ok (a, d')
    | .err e => .err e
    | .panicked => .panicked
    | .dropped => .dropped, g)
  missing h none := by cases none
  found h d' is := by
    cases is
    rcases ran : x.run ⟨d, h.wire⟩ with ⟨_ | _ | _ | _, h'⟩ <;> simp only [Io.runOwned, ran]
  dropped _ _ := rfl
  value g o d' b ok := by cases o <;> cases ok; exact ⟨_, rfl⟩

def inSlot (x : Io Connection α) : Inside x (Io.inSlot x) where
  look := id
  stuck _ := .panicked
  finish _ o conn := (o, some conn)
  missing h empty := by simp only [Io.inSlot, show h.own = none from empty]
  found h conn slot := by simp only [Io.inSlot, show h.own = some conn from slot]
  dropped _ _ := rfl
  value _ _ _ b ok := ⟨b, ok⟩

def onSession (x : Io Session α) : Inside x (Connection.onSession x) where
  look c := c.session
  stuck _ := .err (.thp "no encrypted session established")
  finish c o session := (o, { c with session := some session })
  missing h none := by simp only [Connection.onSession, none]
  found h session established := by simp only [Connection.onSession, established]
  dropped _ _ := rfl
  value _ _ _ b ok := ⟨b, ok⟩

def clearing (x : Io Client.Slot α) : Inside x (Client.clearing x) where
  look slot := some slot
  stuck _ := .panicked
  finish _ o slot := (o, match o with
    | .err _ => none
    | _ => slot)
  missing h none := by cases none
  found h slot is := by
    cases is
    rcases ran : x.run h with ⟨_ | _ | _ | _, h'⟩ <;> simp only [Client.clearing, Comp.onErr, ran]
  dropped _ _ := rfl
  value _ _ _ b ok := ⟨b, ok⟩

end Inside

/-- A property of calls that goes by their parts. -/
structure Composed (P : ∀ ⦃γ α : Type⦄, Io γ α → Prop) : Prop where
  pure : ∀ {γ α : Type} (a : α), P (pure a : Io γ α)
  fail : ∀ {γ α : Type} (e : TrezorError), P (.fail e : Io γ α)
  drop : ∀ {γ α : Type}, P (.drop : Io γ α)
  bind : ∀ {γ α β : Type} {x : Io γ α} {f : α → Io γ β}, P x → (∀ a, P (f a)) → P (x >>= f)
  own : ∀ {γ : Type}, P (Io.own : Io γ γ)
  modifyOwn : ∀ {γ : Type} (f : γ → γ), P (Io.modifyOwn f)
  note : ∀ {γ : Type} {e : Event}, e.packet? = none → P (Io.note e : Io γ Unit)
  readChunk : ∀ {γ : Type}, P (Io.readChunk : Io γ Bytes)
  writeChunk : ∀ {γ : Type} (packet : Bytes), P (Io.writeChunk packet : Io γ Unit)
  getrandom : ∀ {γ : Type} (n : Nat), P (Io.getrandom n : Io γ (Octets n))
  create : ∀ {γ : Type} (packetSize : Nat), P (Connection.new packetSize : Io γ Connection)
  runLocal : ∀ {γ τ α : Type} (x : Comp τ TrezorError α) (t : τ), P (.runLocal x t : Io γ (α × τ))
  inside : ∀ {γ δ α β : Type} {x : Io δ α} {y : Io γ β}, Inside x y → P x → P y
  loop : ∀ {γ α β : Type} {body : β → Io γ (β ⊕ α)} (b : β), (∀ b, P (body b)) → P (Io.loop body b)

namespace Composed

variable {P : ∀ ⦃γ α : Type⦄, Io γ α → Prop} (c : Composed P) {K : Crates} {γ α : Type}

include c

theorem runOwned {δ : Type} {x : Io δ α} (d : δ) (hx : P x) : P (Io.runOwned x d : Io γ (α × δ)) := c.inside (.runOwned x d) hx

theorem inSlot {x : Io Connection α} (hx : P x) : P (Io.inSlot x) := c.inside (.inSlot x) hx

theorem onSession {x : Io Session α} (hx : P x) : P (Connection.onSession x) := c.inside (.onSession x) hx

theorem clearing {x : Io Client.Slot α} (hx : P x) : P (Client.clearing x) := c.inside (.clearing x) hx

theorem ofExcept (r : Except TrezorError α) : P (.ofExcept r : Io γ α) := by
  cases r with
  | ok a => exact c.pure a
  | error e => exact c.fail e

theorem aeadSeal (key : Octets 32) (iv : Octets 12) (aad plaintext : Bytes) :
    P (TrezorCore.aeadSeal K key iv aad plaintext : Io γ _) :=
  c.bind (c.note rfl) fun _ => c.pure _

theorem aeadOpen (key : Octets 32) (iv : Octets 12) (aad ciphertext : Bytes) :
    P (TrezorCore.aeadOpen K key iv aad ciphertext : Io γ _) := by
  refine c.bind (c.note rfl) fun _ => ?_
  cases K.aesGcmDecrypt key iv aad ciphertext with
  | some plaintext => exact c.pure _
  | none => exact c.fail _

/-! ## Framed I/O -/

theorem writePackets : ∀ packets, P (Connection.writePackets packets)
  | [] => c.pure ()
  | packet :: rest => c.bind (c.writeChunk packet) fun _ => writePackets rest

theorem writeFramed (ctrl : UInt8) (payload : Bytes) : P (Connection.writeFramed ctrl payload) :=
  c.bind c.own fun _ => c.bind (c.ofExcept _) fun packets => c.bind (c.note rfl) fun _ => c.writePackets packets

theorem absorbChunk (reasm : Framing.Reassembler) (ctrl : UInt8) (chunk : Bytes) : P (Connection.absorbChunk reasm ctrl chunk) := by
  cases chunk with
  | nil => exact c.pure _
  | cons first rest =>
    refine c.bind (c.runLocal _ _) fun done => ?_
    obtain ⟨done | payload, reasm⟩ := done
    · exact c.pure _
    · refine c.bind (c.note rfl) fun _ => ?_
      generalize (if first &&& CONTINUATION_BIT = 0 then first else ctrl) = named
      split
      · exact c.fail _
      · exact c.pure _

theorem readFramed : P Connection.readFramed := c.loop _ fun b => c.bind c.readChunk fun chunk => c.absorbChunk b.1 b.2 chunk

theorem awaitFrame {step : UInt8 → Bytes → Io Connection (Unit ⊕ α)} (each : ∀ ctrl payload, P (step ctrl payload)) :
    P (Connection.awaitFrame step) :=
  c.loop () fun _ => c.bind c.readFramed fun f => each f.1 f.2

theorem sendDataStep (ctrl : UInt8) (payload : Bytes) : P (Connection.sendDataStep ctrl payload) := by
  refine c.bind c.own fun _ => ?_
  split
  · split
    · exact c.bind (c.modifyOwn _) fun _ => c.pure _
    · exact c.pure _
  · refine c.bind (c.modifyOwn _) fun _ => c.bind (c.note rfl) fun _ => c.bind (c.writeFramed _ _) fun _ => ?_
    split
    · exact c.bind (c.modifyOwn _) fun _ => c.pure _
    · exact c.pure _

theorem recvDataStep (ctrl : UInt8) (payload : Bytes) : P (Connection.recvDataStep ctrl payload) := by
  rw [Connection.recvDataStep]
  split
  · exact c.pure _
  · refine c.bind (c.writeFramed _ _) fun _ => c.bind c.own fun _ => ?_
    split
    · exact c.bind (c.modifyOwn _) fun _ => c.pure _
    · exact c.pure _

theorem sendData (base : UInt8) (payload : Bytes) : P (Connection.sendData base payload) :=
  c.bind c.own fun _ => c.bind (c.note rfl) fun _ => c.bind (c.writeFramed _ _) fun _ =>
    c.bind (c.awaitFrame c.sendDataStep) fun _ => c.note rfl

theorem recvData : P Connection.recvData := by
  refine c.bind c.own fun _ => ?_
  split
  · exact c.bind (c.modifyOwn _) fun _ => c.bind (c.note rfl) fun _ => c.pure _
  · exact c.bind (c.awaitFrame c.recvDataStep) fun _ => c.bind (c.note rfl) fun _ => c.pure _

/-! ## Application messages -/

theorem sendApp (type : UInt16) (body : Bytes) : P (Connection.sendApp K type body) :=
  c.bind c.own fun _ => c.bind (c.onSession (c.bind (c.note rfl) fun _ => c.bind c.own fun _ => c.bind (c.aeadSeal _ _ _ _) fun _ =>
    c.bind (c.modifyOwn _) fun _ => c.pure _)) fun _ => c.sendData _ _

theorem recvApp : P (Connection.recvApp K) :=
  c.bind c.recvData fun _ => c.bind (c.bind c.own fun _ => c.onSession (c.bind c.own fun _ => c.bind (c.bind c.own fun _ =>
    c.bind (c.aeadOpen _ _ _ _) fun _ => c.bind (c.modifyOwn _) fun _ => c.pure _) fun _ => c.bind (c.ofExcept _) fun _ =>
    c.bind (c.note rfl) fun _ => c.pure _)) fun _ => c.pure _

theorem transceiveTurn (u : Unit) : P (Connection.transceiveTurn K u) := by
  refine c.bind c.recvApp fun reply => ?_
  split
  split
  · exact c.bind (c.sendApp _ _) fun _ => c.pure _
  · split
    · exact c.fail _
    · exact c.pure _

theorem transceive (type : UInt16) (body : Bytes) : P (Connection.transceive K type body) :=
  c.bind (c.sendApp _ _) fun _ => c.bind (c.loop () c.transceiveTurn) fun _ => c.bind c.own fun _ =>
    c.bind (c.note rfl) fun _ => c.pure _

theorem ask (q : Request) : P (Chat.ask K q) := by
  rw [Chat.ask]
  split
  · exact c.bind (c.modifyOwn _) fun _ => c.transceive _ _
  · exact c.transceive _ _

theorem chat {α : Type} (chat : Chat α) : P (chat.on K) := by
  rw [Chat.on]
  induction chat with
  | done a => exact c.pure a
  | fail e => exact c.fail e
  | ask q next ih => exact c.bind (c.ask q) ih
  | loop body b next ihBody ihNext => exact c.bind (c.loop b ihBody) ihNext

/-! ## Bringing a channel up -/

theorem awaitAllocation (nonce : Octets 8) : ∀ reads, P (Connection.awaitAllocation K nonce reads)
  | 0 => c.fail _
  | reads + 1 => by
    refine c.bind c.readFramed fun frame => ?_
    split
    split
    · split
      · exact c.bind (c.modifyOwn _) fun _ => c.pure _
      · exact awaitAllocation nonce reads
    · exact awaitAllocation nonce reads

theorem allocate : P (Connection.allocate K) :=
  c.bind (c.getrandom 8) fun nonce => c.bind (c.modifyOwn _) fun _ => c.bind (c.writeFramed _ _) fun _ => c.awaitAllocation nonce _

theorem hkdf (ck input : Bytes) : P (Noise.hkdf K ck input : Io γ _) := c.bind (c.note rfl) fun _ => c.pure _

theorem asArray32 (bytes : Bytes) : P (Noise.asArray32 bytes : Io γ _) := by
  rw [Noise.asArray32]
  cases Bytes.asOctets 32 bytes with
  | some array => exact c.pure _
  | none => exact c.fail _

theorem readInitResponse (resp : Bytes) : P (Noise.HostHandshake.readInitResponse K resp) := by
  unfold Noise.HostHandshake.readInitResponse
  split
  · exact c.fail _
  · refine c.bind c.own fun _ => c.bind (c.asArray32 _) fun _ => c.bind (c.hkdf _ _) fun _ => c.bind (c.aeadOpen _ _ _ _) fun _ =>
      c.bind (c.asArray32 _) fun _ => c.bind (c.hkdf _ _) fun _ => c.bind (c.aeadOpen _ _ _ _) fun _ => ?_
    split
    · exact c.fail _
    · exact c.bind (c.aeadSeal _ _ _ _) fun _ => c.bind (c.hkdf _ _) fun _ => c.bind (c.aeadSeal _ _ _ _) fun _ =>
        c.bind (c.modifyOwn _) fun _ => c.pure _

theorem handshake (devicePropertiesRaw : Bytes) (hostStaticPriv : Octets 32) (credential : Option Bytes) :
    P (Connection.handshake K devicePropertiesRaw hostStaticPriv credential) :=
  c.bind (c.bind (c.getrandom 32) fun _ => c.pure _) fun _ => c.bind (c.sendData _ _) fun _ => c.bind c.recvData fun _ =>
    c.bind (c.runOwned _ (c.readInitResponse _)) fun _ => c.bind (c.sendData _ _) fun _ => c.bind c.recvData fun _ =>
      c.bind (c.runOwned _ (c.bind c.own fun _ => c.bind (c.hkdf _ _) fun _ => c.bind (c.aeadOpen _ _ _ _) fun _ => c.pure _)) fun _ =>
        c.pure _

/-! ## The client -/

theorem endRequest : P (Pairing.endRequest K) := c.bind (c.transceive _ _) fun _ => c.ofExcept _

theorem openPairedConnection (hostStaticPriv : Octets 32) (credential : Bytes) :
    P (Client.openPairedConnection K hostStaticPriv credential : Io γ Connection) := by
  refine c.bind (c.create _) fun _ => c.bind (c.runOwned _ (c.bind c.allocate fun _ => c.bind (c.handshake _ _ _) fun _ => ?_))
    fun _ => c.pure _
  split
  · exact c.fail _
  · exact c.bind (c.modifyOwn _) fun _ => c.endRequest

theorem createSeededSession (passphrase : Option String) (onDevice : Bool) :
    P (Connection.createSeededSession K passphrase onDevice) := by
  refine c.bind (c.modifyOwn _) fun _ => c.bind (c.transceive _ _) fun _ => ?_
  split
  split
  · exact c.fail _
  · exact c.modifyOwn _

theorem ensureConn (hostStaticPriv credential : Bytes) (spec : PassphraseSpec) :
    P (Client.ensureConn K hostStaticPriv credential spec) := by
  have opened : P (do
      let slot ← Io.own
      if slot.isNone then do
        let hsp ← .ofExcept (Client.toArray32 hostStaticPriv)
        let conn ← Client.openPairedConnection K hsp credential
        let conn ← Io.runOwned (Connection.createSeededSession K spec.walletKey.1 spec.walletKey.2) conn
        Io.modifyOwn fun _ => some conn.2 : Io Client.Slot Unit) := by
    refine c.bind c.own fun slot => ?_
    split
    · exact c.bind (c.ofExcept _) fun _ => c.bind (c.openPairedConnection _ _) fun _ =>
        c.bind (c.runOwned _ (c.createSeededSession _ _)) fun _ => c.modifyOwn _
    · exact c.pure _
  refine c.bind c.own fun slot => ?_
  split
  · exact c.bind (c.modifyOwn _) fun _ => opened
  · exact opened

theorem call (call : Client.Call) : P (call.run K) := by
  rw [Client.Call.run_eq]
  exact c.bind (c.ofExcept _) fun _ => c.bind (c.bind (c.clearing (c.ensureConn _ _ _)) fun _ => c.clearing (c.inSlot (c.chat _)))
    fun _ => c.ofExcept _

theorem runCodeentryPairing (handshakeHash hostStaticPubkey : Octets 32) (hostName appName : String) (codeProvider : Option String) :
    P (Pairing.runCodeentryPairing K handshakeHash hostStaticPubkey hostName appName codeProvider) := by
  have asked : P (Pairing.requestCode codeProvider) := by
    cases codeProvider with
    | some code => exact c.pure code
    | none => exact c.drop
  refine c.bind (c.transceive _ _) fun _ => c.bind (c.ofExcept _) fun _ => c.bind (c.transceive _ _) fun _ =>
    c.bind (c.ofExcept _) fun _ => c.bind (c.ofExcept _) fun _ => c.bind (c.getrandom 16) fun _ => c.bind (c.transceive _ _) fun _ =>
    c.bind (c.ofExcept _) fun _ => c.bind (c.ofExcept _) fun _ => c.bind (c.ofExcept _) fun _ => c.bind asked fun _ =>
    c.bind (c.ofExcept _) fun _ => c.bind (c.getrandom 32) fun _ => c.bind (c.transceive _ _) fun _ => c.bind (c.ofExcept _) fun _ =>
    c.bind (c.ofExcept _) fun _ => ?_
  split
  · exact c.fail _
  · exact c.bind (c.transceive _ _) fun _ => c.bind (c.ofExcept _) fun _ => c.bind (c.ofExcept _) fun _ => c.pure _

theorem establishPairedSession (hostStaticPriv : Bytes) (hostName appName : String) (storedCredential : Option Bytes)
    (codeProvider : Option String) :
    P (Client.establishPairedSession K hostStaticPriv hostName appName storedCredential codeProvider : Io γ _) := by
  refine c.bind (c.ofExcept _) fun _ => c.bind (c.create _) fun _ => c.bind (c.runOwned _ (c.bind c.allocate fun _ =>
    c.bind (c.handshake _ _ _) fun _ => c.bind (c.modifyOwn _) fun _ => ?_)) fun _ => c.pure _
  split
  · exact c.bind (c.pure _) fun _ => c.bind c.endRequest fun _ => c.bind (c.chat _) fun _ => c.pure _
  · exact c.bind (c.runCodeentryPairing _ _ _ _ _) fun _ => c.bind c.endRequest fun _ => c.bind (c.chat _) fun _ => c.pure _

/-- **A property of the parts** is one of every method. -/
theorem method (m : Client.Method) : P (m.run K) := by
  cases m with
  | pinned call => exact c.bind (c.call call) fun _ => c.pure _
  | thpProbe =>
    exact c.bind (c.bind (c.create _) fun _ => c.bind (c.runOwned _ (c.bind c.allocate fun _ => c.bind (c.getrandom 32) fun _ =>
      c.bind (c.handshake _ _ _) fun _ => c.pure _)) fun _ => c.pure _) fun _ => c.pure _
  | establishPairedSession => exact c.bind (c.establishPairedSession _ _ _ _ _) fun _ => c.pure _
  | notImplemented feature => exact c.fail _

end Composed

end TrezorCore
