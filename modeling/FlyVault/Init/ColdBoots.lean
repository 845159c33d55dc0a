/-
  Cold boots of one machine by any number of clients: the control streams of init
  (`crates/init/src/quic.rs`) on its setup manager, and the clients, which run `connect_ready`
  without `--reprovision` (`crates/client/src/quic.rs`).

  The handler is the one of `Control`, on a host whose calls are those of `Setup`. A stream
  locks the shared state three times: in `build_attestation`, for the state that the next phase
  keeps, and for the setup; everything else it does in between touches nothing shared. So these
  are its steps, with the client's setup request between them, and the steps of all streams
  interleave freely. What comes from outside (the TLS exporter, the token service, downloads,
  the client's files) is part of the label of a step. A client may go away at any time before
  its setup.

  `activated` lists the streams whose payload has become the active rootfs. `activated_once`
  says when there is at most one of them.
-/
import FlyVault.Lib.Run
import FlyVault.Init.Control
import FlyVault.Init.ColdProvision

namespace FlyVault.Init.ColdBoots

open FlyVault.Lib FlyVault.Protocol
open Prog (wp wp_bind wp_pure wp_mono)
open Setup hiding World Config M Stop

variable {α : Type}

/-! ## The client -/

/-- What `connect_ready` reads of the client's `VaultConfig` for the setup. -/
structure ClientConfig where
  rootfs : Option String
  rootfsUrl : Option String
  accessToken : Option String
  deriving DecidableEq, Repr

/-- What the client asks of its own machine; a url is parsed into its scheme and its text. -/
structure Local where
  expandTilde : String → Except String String
  read : String → Except String Bytes
  parseUrl : String → Except String (String × String)

/-- `provisioning_source`. -/
def provisioningSource (here : Local) (cfg : ClientConfig) (state : VmState)
    (reprovision : Bool) : Except String RootfsSource :=
  if state = .ready ∧ reprovision = false then .ok .none
  else
    match cfg.rootfs, cfg.rootfsUrl with
    | some _, some _ => .error "both rootfs and rootfs_url are set; configure exactly one"
    | none, none =>
        .error ("either rootfs path or rootfs_url is required for " ++
          if state = .cold then "cold boot" else "reprovision")
    | some path, none => do
        let expanded ← here.expandTilde path
        match here.read expanded with
        | .ok bytes => .ok (.inline bytes)
        | .error e => .error ("read rootfs " ++ path ++ ": " ++ e)
    | none, some url =>
        match here.parseUrl url with
        | .error e => .error ("parse rootfs_url " ++ url ++ ": " ++ e)
        | .ok (scheme, text) =>
            if scheme = "http" ∨ scheme = "https" then .ok (.url text)
            else .error ("rootfs_url must use http or https scheme, got " ++ scheme)

/-- The setup request of `connect_ready`, for the state it was told. -/
def setupRequest (here : Local) (cfg : ClientConfig) (told : VmState) (reprovision : Bool) :
    Except String SetupRequest :=
  match cfg.accessToken with
  | none => .error "access_token is required"
  | some token => do
      let rootfs ← provisioningSource here cfg told reprovision
      pure ⟨token, rootfs⟩

/-- A client that was told `Ready` sends no rootfs. -/
theorem setupRequest_ready {here : Local} {cfg : ClientConfig} {request : SetupRequest}
    (h : setupRequest here cfg .ready false = .ok request) : request.rootfs = .none := by
  unfold setupRequest at h
  split at h
  · cases h
  · cases h
    rfl

/-! ## The machine -/

/-- The shared state, with the streams whose payload was set up. -/
structure Machine where
  setup : Setup.World
  vmState : VmState
  activated : List Nat

/-- A call of the setup manager. -/
def manage (x : Setup.M α) : Control.Call Machine α := fun m =>
  match Prog.exec x m.setup with
  | (.ok a, w) => (.ok a, { m with setup := w })
  | (.error (.error e), w) => (.error e, { m with setup := w })
  | (.error (.crash _), w) => (.error "killed", { m with setup := w })

/-- `detect_state` as an operation. -/
def detect (env : Env) : Setup.M VmState := do
  if ← pathExists env .detect (.at .provisioned) then pure .ready else pure .cold

/-- The payload of stream `p`, if it has one, has become the active rootfs. -/
def Machine.activate (p : Nat) (rootfsTarball : Option Bytes) (m : Machine) : Machine :=
  if rootfsTarball.isSome then { m with activated := m.activated ++ [p] } else m

/-- `setup_and_prepare` for stream `p`. -/
def prepare (env : Env) (p : Nat) (rootfsTarball : Option Bytes) : Control.Call Machine Unit :=
  fun m =>
    match manage (setupAndPrepare env rootfsTarball) m with
    | (.ok (), m') => (.ok (), m'.activate p rootfsTarball)
    | (.error e, m') => (.error e, m')

/-- The answers from outside. -/
structure Net where
  exportKeyingMaterial : Except String Bytes
  fetchOidcToken : String → Except String String
  downloadRootfsTarball : String → Except String Bytes
  write : Bytes → Except String Unit
  debug : ControlMessage → String

/-- What the handler of stream `p` calls. -/
def host (env : Env) (net : Net) (p : Nat) : Control.Host Machine where
  exportKeyingMaterial m := (net.exportKeyingMaterial, m)
  fetchOidcToken aud m := (net.fetchOidcToken aud, m)
  detectState := manage (detect env)
  ensureLiveInnerInitPid := manage (ensureLiveInnerInitPid env)
  runtimeStatus := manage (runtimeStatus env)
  vmState m := (m.vmState, m)
  setVmState state m := { m with vmState := state }
  downloadRootfsTarball url m := (net.downloadRootfsTarball url, m)
  setupAndPrepare := prepare env p
  write bytes m := (net.write bytes, m)
  debug := net.debug

/-! ## The streams -/

inductive Stream
  | fresh
  /-- The client was told `told`; the handler has seen `seen` for its next phase, and the client
      has sent `request`. -/
  | waiting (told : VmState) (seen : Option VmState) (request : Option SetupRequest)
  | closed (complete : Bool)

structure Sys where
  machine : Machine
  streams : Nat → Stream

def init (w : Setup.World) (vmState : VmState) : Sys := ⟨⟨w, vmState, []⟩, fun _ => .fresh⟩

inductive Label
  /-- The request for the attestation, and `build_attestation`. -/
  | attest (p : Nat) (net : Net)
  /-- The state for `AwaitSetupRequest`. -/
  | remember (p : Nat)
  /-- The client's setup request. -/
  | request (p : Nat) (here : Local)
  /-- `apply_setup_request`. -/
  | apply (p : Nat) (net : Net)
  /-- The client goes away, or rejects the attestation. -/
  | drop (p : Nat)

def Stream.attested : Except Control.Stop AttestationPayload → Stream
  | .ok payload => .waiting payload.state none none
  | .error _ => .closed false

def Stream.requested (told : VmState) (seen : Option VmState) :
    Except String SetupRequest → Stream
  | .ok request => .waiting told seen (some request)
  | .error _ => .closed false

def Stream.applied : Except Control.Stop Unit → Stream
  | .ok () => .closed true
  | .error _ => .closed false

section Streams

variable (env : Env) (cfg : Control.Config) (clients : Nat → ClientConfig)

def step (s : Sys) : Label → Option Sys
  | .attest p net =>
      match s.streams p with
      | .fresh =>
          let r := Prog.exec (Control.buildAttestation (host env net p) cfg) ⟨s.machine, []⟩
          some ⟨r.2.host, Function.update s.streams p (.attested r.1)⟩
      | _ => none
  | .remember p =>
      match s.streams p with
      | .waiting told none request =>
          some { s with
            streams := Function.update s.streams p
              (.waiting told (some s.machine.vmState) request) }
      | _ => none
  | .request p here =>
      match s.streams p with
      | .waiting told seen none =>
          some { s with
            streams := Function.update s.streams p
              (.requested told seen (setupRequest here (clients p) told false)) }
      | _ => none
  | .apply p net =>
      match s.streams p with
      | .waiting _ (some seen) (some request) =>
          let r := Prog.exec (Control.applySetupRequest (host env net p) cfg seen request)
            ⟨s.machine, []⟩
          some ⟨r.2.host, Function.update s.streams p (.applied r.1)⟩
      | _ => none
  | .drop p =>
      match s.streams p with
      | .closed _ => none
      | _ => some { s with streams := Function.update s.streams p (.closed false) }

end Streams

/-- The client was told `Cold`, and its setup is still to come. -/
def Stream.ToldCold : Stream → Prop
  | .waiting told _ _ => told = .cold
  | _ => False

/-- No client is told `Cold` while the setup of another one that was told `Cold` is still to
    come. -/
def OneAtATime (env : Env) (s : Sys) : Label → Prop
  | .attest _ _ => detectState env s.machine.setup.fs = .cold → ∀ q, ¬ (s.streams q).ToldCold
  | _ => True

/-! ## The marker -/

/-- The marker stays a file, if it is there at all. -/
def StaysPlain (fs fs' : Fs Slot) : Prop := Plain fs → Plain fs'

section Marker

variable {env : Env} {w : Setup.World}

/-- Everything but the marker. -/
theorem adopts_offMarker : Adopts (Kept (· ≠ .provisioned)) (· ≠ .provisioned) :=
  adopts_kept (fun _ hk => hk) (by simp)

theorem adopts_staysPlain : Adopts StaysPlain (· ≠ .provisioned) where
  refl _ h := h
  trans h₁ h₂ h := h₂ (h₁ h)
  change fs p n hp h := h.of_eq (adopts_offMarker.change fs p n hp _ (by simp))
  create fs m hnone h := h.of_eq (adopts_offMarker.create fs m hnone _ (by simp))
  adopt k name m d hk hd hop h :=
    h.of_eq (adopts_offMarker.adopt k name m d hk hd hop _ (by simp))

theorem plain_put_file (fs : Fs Slot) (content : List UInt8) :
    Plain (fs.put (.at .provisioned) (some (.file content))) :=
  .inr ⟨content, by simp⟩

/-- The marker is written and removed as a file. -/
theorem marks_staysPlain : Marks env StaysPlain where
  store step := by
    refine (preserves_perform_of (fun _ h => h) (fun fs a fs' hop => ?_) (fun residue fs => ?_)
      fun w left => ?_).context
    · unfold Fs.write at hop
      split at hop
      · cases hop
      · cases hop; exact id
      · cases hop; exact id
      · cases hop; exact fun _ => plain_put_file fs _
      · split at hop
        · cases hop; exact fun _ => plain_put_file fs _
        · cases hop
    · cases residue with
      | none => exact id
      | some node =>
          cases node with
          | file content =>
              simp only [Damage.apply]
              split
              · exact fun _ => plain_put_file fs _
              · exact fun _ => plain_put_file fs _
              · exact id
          | _ => exact id
    · exact id
  clear step := by
    have hp := adopts_staysPlain.toPermits
    refine Preserves.bind hp (preserves_intact hp fun fs a fs' hop => ?_).context fun _ =>
      preserves_pure hp _
    unfold Fs.removeFile at hop
    split at hop
    · cases hop; exact id
    · cases hop
    · cases hop; exact fun _ => .inl (by simp)

theorem preserves_promoted (data : Bytes) : Preserves StaysPlain (promoted env data) := by
  have h := adopts_staysPlain
  have hp := h.toPermits
  have hclear : Preserves StaysPlain (clearWay env) :=
    Preserves.bind hp (preserves_hadExistingRoot hp) fun hadRoot =>
      Preserves.bind hp (preserves_stopRuntime hp (by simp)) fun _ =>
      Preserves.bind hp (preserves_removePathIfExists hp (by simp [Path.at])) fun _ =>
      Preserves.bind hp (preserves_setAside hp (by simp) (by simp) hadRoot) fun _ =>
      preserves_pure hp _
  exact Preserves.bind hp (preserves_pathExists hp _) fun _ =>
    Preserves.bind hp (preserves_stageRootfs h (by simp) data) fun _ =>
    Preserves.bind hp hclear fun hadRoot =>
    Preserves.bind hp (preserves_promote hp (by simp) (by simp) (by simp) marks_staysPlain hadRoot)
      fun _ => preserves_pure hp _

theorem startNew_marked (hadRoot : Bool) (h : Marked w.fs) :
    wp (startNew env hadRoot) (fun _ w' => Marked w'.fs)
      (Ends (fun _ => True) fun _ _ => True) w := by
  have hp := adopts_offMarker.toPermits
  unfold startNew
  rw [wp_bind]
  refine wp_attempt (wp_mono
    ((preserves_ensureRuntimeStarted adopts_offMarker (by simp)).ends w) ?_ ?_)
  · intro _ w₁ hkept
    refine wp_mono ((preserves_removePathIfExists hp (by simp [Path.at])).ends w₁) ?_ fun _ _ hw =>
      hw.imp (fun _ => trivial) fun _ _ => trivial
    intro _ w₂ hkept'
    exact (h.of_eq (hkept _ (by simp))).of_eq (hkept' _ (by simp))
  · intro stop w₁ hw
    refine hw.imp (fun _ err => ?_) fun _ _ => trivial
    exact wp_mono (recover_fails hadRoot err) (fun _ _ hw => hw.elim) fun _ _ hw =>
      hw.imp (fun _ => trivial) fun _ _ => trivial

/-- A setup with a payload that succeeds leaves the marker. -/
theorem setupAndPrepare_marked (h : Plain w.fs) (data : Bytes) :
    wp (setupAndPrepare env (some data)) (fun _ w' => Marked w'.fs)
      (fun _ w' => Plain w'.fs) w := by
  have hplain : Preserves StaysPlain (setupAndPrepare env (some data)) :=
    preserves_setupAndPrepare adopts_staysPlain (by simp) (by simp) (by simp) marks_staysPlain _
  have hmarked : wp (setupAndPrepare env (some data)) (fun _ w' => Marked w'.fs)
      (Ends (fun _ => True) fun _ _ => True) w := by
    rw [setupAndPrepare_eq]
    refine wp_seq ((preserves_promoted data).ends w) (fun _ _ => trivial) ?_
    intro hadRoot w₁ hw₁
    refine wp_seq (storeProvisionMarker_plain (hw₁ h)) (fun _ _ => trivial) ?_
    intro _ w₂ hw₂
    exact startNew_marked hadRoot hw₂.1
  exact wp_mono (Prog.wp_and hmarked (hplain w)) (fun _ _ hw => hw.1) fun _ _ hw => hw.2 h

theorem setupAndPrepare_none :
    Preserves (Kept (· ≠ .provisioned)) (setupAndPrepare env none) := by
  have hp := adopts_offMarker.toPermits
  exact Preserves.bind hp (preserves_pathExists hp _) fun _ =>
    preserves_ite (preserves_ensureRuntimeStarted adopts_offMarker (by simp)) (preserves_throw hp _)

theorem preserves_detect : Preserves (Kept (· ≠ .provisioned)) (detect env) := by
  have hp := adopts_offMarker.toPermits
  exact Preserves.bind hp (preserves_pathExists hp _) fun _ =>
    preserves_ite (preserves_pure hp _) (preserves_pure hp _)

theorem detectState_congr {fs fs' : Fs Slot} (h : fs' .provisioned = fs .provisioned) :
    detectState env fs' = detectState env fs := by
  unfold detectState Fs.pathExists
  rw [Fs.get_at, Fs.get_at, h]

/-- With no operation failing, the state is the one of the marker. -/
theorem detect_spec (hplan : ∀ n, env.plan n = none) :
    wp (detect env) (fun state w' => w'.fs = w.fs ∧ state = detectState env w.fs)
      (fun _ w' => w'.fs = w.fs) w := by
  refine wp_ends ?_
  unfold detect
  rw [wp_bind]
  refine wp_mono (pathExists_spec _) ?_ fun _ _ hw => hw.imp False.elim fun _ hd => hd.1
  intro b w₁ hw₁
  obtain ⟨hfs, ⟨rfl, -⟩ | ⟨-, -, n, residue, hn⟩⟩ := hw₁
  · unfold detectState
    split <;> exact ⟨hfs, rfl⟩
  · rw [hplan n] at hn
    cases hn

end Marker

/-! ## One step of a stream -/

/-- Nothing was activated, and the marker is as it was. -/
structure Steady (m m' : Machine) : Prop where
  activated : m'.activated = m.activated
  marker : m'.setup.fs .provisioned = m.setup.fs .provisioned

theorem Steady.refl (m : Machine) : Steady m m := ⟨rfl, rfl⟩

theorem Steady.trans {m₁ m₂ m₃ : Machine} (h : Steady m₁ m₂) (h' : Steady m₂ m₃) :
    Steady m₁ m₃ :=
  ⟨h'.activated.trans h.activated, h'.marker.trans h.marker⟩

theorem wp_manage {x : Setup.M α} {Q : α → Setup.World → Prop} {E : Setup.World → Prop}
    {w : Control.World Machine} (h : wp x Q (fun _ => E) w.host.setup) :
    wp (Control.call (manage x))
      (fun a w' => Q a w'.host.setup ∧ w'.host.activated = w.host.activated)
      (fun _ w' => E w'.host.setup ∧ w'.host.activated = w.host.activated) w := by
  unfold wp at h
  cases hexec : Prog.exec x w.host.setup with
  | mk result w' =>
      rw [hexec] at h
      refine Control.wp_call (fun a m hm => ?_) fun e m hm => ?_
      · unfold manage at hm
        rw [hexec] at hm
        cases result with
        | ok a => cases hm; exact ⟨h, rfl⟩
        | error stop => cases stop <;> cases hm
      · unfold manage at hm
        rw [hexec] at hm
        cases result with
        | ok a => cases hm
        | error stop => cases stop <;> (cases hm; exact ⟨h, rfl⟩)

def Steadily (x : Control.M Machine α) : Prop :=
  ∀ w, wp x (fun _ w' => Steady w.host w'.host) (fun _ w' => Steady w.host w'.host) w

section Steadily

variable {β : Type}

theorem steadily_pure (a : α) : Steadily (pure a : Control.M Machine α) := fun w => .refl w.host

theorem Steadily.bind {x : Control.M Machine α} {f : α → Control.M Machine β} (hx : Steadily x)
    (hf : ∀ a, Steadily (f a)) : Steadily (x >>= f) := by
  intro w
  rw [wp_bind]
  refine wp_mono (hx w) (fun a w₁ h₁ => ?_) fun _ _ h₁ => h₁
  exact wp_mono (hf a w₁) (fun _ _ h₂ => h₁.trans h₂) fun _ _ h₂ => h₁.trans h₂

theorem Steadily.mapErr {f : String → String} {x : Control.M Machine α} (hx : Steadily x) :
    Steadily (Control.mapErr f x) :=
  fun w => Control.wp_mapErr (wp_mono (hx w) (fun _ _ h => h) fun _ _ h _ => h)

/-- A call outside of the machine. -/
theorem steadily_outside (r : Except String α) :
    Steadily (Control.call fun m : Machine => (r, m)) := by
  intro w
  refine Control.wp_call (fun a m hm => ?_) fun e m hm => ?_
  · cases hm
    exact .refl w.host
  · cases hm
    exact .refl w.host

theorem steadily_manage {x : Setup.M α} (hx : Preserves (Kept (· ≠ .provisioned)) x) :
    Steadily (Control.call (manage x)) := by
  intro w
  refine wp_mono (wp_manage (hx w.host.setup)) (fun _ w' h => ?_) fun _ w' h => ?_
  · exact ⟨h.2, h.1 _ (by simp)⟩
  · exact ⟨h.2, h.1 _ (by simp)⟩

theorem steadily_setVmState (state : VmState) :
    Steadily (Control.access fun m : Machine => ((), { m with vmState := state })) :=
  fun _ => Control.wp_access.mpr ⟨rfl, rfl⟩

end Steadily

section Handler

variable {env : Env} {net : Net} {p : Nat} {cfg : Control.Config}

theorem steadily_runtimeStatus : Steadily (Control.call (host env net p).runtimeStatus) :=
  steadily_manage (preserves_runtimeStatus adopts_offMarker.toPermits (by simp))

theorem wp_detectState (hplan : ∀ n, env.plan n = none) (w : Control.World Machine) :
    wp (Control.call (host env net p).detectState)
      (fun state w' => Steady w.host w'.host ∧ state = detectState env w.host.setup.fs)
      (fun _ w' => Steady w.host w'.host) w := by
  refine wp_mono (wp_manage (detect_spec hplan)) (fun _ w' h => ?_) fun _ w' h => ?_
  · exact ⟨⟨h.2, by rw [h.1.1]⟩, h.1.2⟩
  · exact ⟨h.2, by rw [h.1]⟩

/-- The state a client is told is the one of the marker. -/
theorem refreshVmState_spec (hplan : ∀ n, env.plan n = none) (w : Control.World Machine) :
    wp (Control.refreshVmState (host env net p))
      (fun state w' => Steady w.host w'.host ∧ state = detectState env w.host.setup.fs)
      (fun _ w' => Steady w.host w'.host) w := by
  unfold Control.refreshVmState
  rw [wp_bind]
  refine wp_mono (wp_detectState hplan w) ?_ fun _ _ h => h
  intro state w₁ hw₁
  obtain ⟨hsteady₁, rfl⟩ := hw₁
  rw [wp_bind]
  refine wp_mono (steadily_setVmState _ w₁) ?_ fun _ _ h => hsteady₁.trans h
  intro _ w₂ hw₂
  have hsteady₂ := hsteady₁.trans hw₂
  split
  · have hlive : Steadily (Control.mapErr ("ensure live runtime before attestation: " ++ ·)
        (Control.call (host env net p).ensureLiveInnerInitPid)) :=
      (steadily_manage (preserves_ensureLiveInnerInitPid adopts_offMarker (by simp))).mapErr
    rw [wp_bind]
    refine wp_mono (hlive w₂) ?_ fun _ _ h => hsteady₂.trans h
    intro _ w₃ hw₃
    have hsteady₃ := hsteady₂.trans hw₃
    rw [wp_bind]
    refine wp_mono (wp_detectState hplan w₃) ?_ fun _ _ h => hsteady₃.trans h
    intro state w₄ hw₄
    obtain ⟨hsteady₄, rfl⟩ := hw₄
    rw [wp_bind]
    refine wp_mono (steadily_setVmState _ w₄) ?_ fun _ _ h =>
      (hsteady₃.trans hsteady₄).trans h
    intro _ w₅ hw₅
    exact ⟨(hsteady₃.trans hsteady₄).trans hw₅, detectState_congr hsteady₃.marker⟩
  · exact ⟨hsteady₂, rfl⟩

theorem buildAttestation_spec (hplan : ∀ n, env.plan n = none) (w : Control.World Machine) :
    wp (Control.buildAttestation (host env net p) cfg)
      (fun payload w' => Steady w.host w'.host ∧
        payload.state = detectState env w.host.setup.fs)
      (fun _ w' => Steady w.host w'.host) w := by
  have hjwt : ∀ aud, Steadily (Control.attestationJwt (host env net p) cfg aud) := by
    intro aud
    unfold Control.attestationJwt
    split
    · exact steadily_pure _
    · exact steadily_outside _
  unfold Control.buildAttestation
  rw [wp_bind]
  refine wp_mono ((steadily_outside net.exportKeyingMaterial).mapErr w) ?_ fun _ _ h => h
  intro ekm w₁ hw₁
  rw [wp_bind]
  refine wp_mono (hjwt _ w₁) ?_ fun _ _ h => hw₁.trans h
  intro jwt w₂ hw₂
  have hsteady₂ := hw₁.trans hw₂
  rw [wp_bind]
  refine wp_mono (refreshVmState_spec hplan w₂) ?_ fun _ _ h => hsteady₂.trans h
  intro state w₃ hw₃
  obtain ⟨hw₃, rfl⟩ := hw₃
  have hsteady₃ := hsteady₂.trans hw₃
  rw [wp_bind]
  refine wp_mono (steadily_runtimeStatus w₃) ?_ fun _ _ h => hsteady₃.trans h
  intro status w₄ hw₄
  exact ⟨hsteady₃.trans hw₄, detectState_congr hsteady₂.marker⟩

end Handler

/-! ## The setup -/

/-- What a setup of stream `p` may have done. -/
structure Prepared (p : Nat) (m m' : Machine) : Prop where
  plain : Plain m'.setup.fs
  activated : m'.activated = m.activated ∨
    m'.activated = m.activated ++ [p] ∧ Marked m'.setup.fs

theorem Prepared.steady {p : Nat} {m₁ m₂ m₃ : Machine} (h : Prepared p m₁ m₂)
    (h' : Steady m₂ m₃) : Prepared p m₁ m₃ where
  plain := h.plain.of_eq h'.marker
  activated := by
    rcases h.activated with hsame | ⟨hnew, hmarked⟩
    · exact .inl (h'.activated.trans hsame)
    · exact .inr ⟨h'.activated.trans hnew, hmarked.of_eq h'.marker⟩

section Setup

variable {env : Env} {net : Net} {p : Nat} {cfg : Control.Config} {w : Control.World Machine}

theorem wp_prepare {rootfsTarball : Option Bytes} {Q Q' E : Machine → Prop}
    (h : wp (Control.call (manage (setupAndPrepare env rootfsTarball)))
      (fun _ w' => Q w'.host) (fun _ w' => E w'.host) w)
    (hQ : ∀ m, Q m → Q' (m.activate p rootfsTarball)) :
    wp (Control.call (prepare env p rootfsTarball)) (fun _ w' => Q' w'.host)
      (fun _ w' => E w'.host) w := by
  unfold wp Control.call at h ⊢
  simp only [Prog.exec_prim] at h ⊢
  unfold prepare
  cases hm : manage (setupAndPrepare env rootfsTarball) w.host with
  | mk result m =>
      rw [hm] at h
      cases result with
      | ok u => exact hQ m h
      | error e => exact h

/-- A setup without a payload only starts the runtime. -/
theorem prepare_none : Steadily (Control.call (prepare env p none)) :=
  fun w => wp_prepare (steadily_manage setupAndPrepare_none w) fun _ h => h

theorem prepare_spec (h : Plain w.host.setup.fs) (rootfsTarball : Option Bytes) :
    wp (Control.call (prepare env p rootfsTarball)) (fun _ w' => Prepared p w.host w'.host)
      (fun _ w' => Prepared p w.host w'.host) w := by
  cases rootfsTarball with
  | none =>
      refine wp_mono (prepare_none w) (fun _ _ hs => ?_) fun _ _ hs => ?_
      · exact ⟨h.of_eq hs.marker, .inl hs.activated⟩
      · exact ⟨h.of_eq hs.marker, .inl hs.activated⟩
  | some data =>
      have hmanage : wp (Control.call (manage (setupAndPrepare env (some data))))
          (fun _ w' => Marked w'.host.setup.fs ∧ w'.host.activated = w.host.activated)
          (fun _ w' => Prepared p w.host w'.host) w :=
        wp_mono (wp_manage (setupAndPrepare_marked h data)) (fun _ _ hs => hs) fun _ _ hs =>
          ⟨hs.1, .inl hs.2⟩
      refine wp_prepare (Q := fun m => Marked m.setup.fs ∧ m.activated = w.host.activated) hmanage
        fun m hm => ?_
      exact ⟨.inr hm.1, .inr ⟨congrArg (· ++ [p]) hm.2, hm.1⟩⟩

theorem resolveRootfsSource_host (source : RootfsSource) :
    wp (Control.resolveRootfsSource (host env net p) source)
      (fun tarball w' => w'.host = w.host ∧ (source = .none → tarball = none))
      (fun _ w' => w'.host = w.host) w := by
  unfold Control.resolveRootfsSource
  rw [wp_bind, Control.wp_record]
  cases source with
  | none => exact ⟨rfl, fun _ => rfl⟩
  | inline data => exact ⟨rfl, by intro hf; cases hf⟩
  | url url =>
      rw [wp_bind]
      refine Control.wp_call (fun data m hm => ?_) fun e m hm => ?_
      · have hhost : w.host = m := congrArg Prod.snd hm
        exact ⟨hhost.symm, by intro hf; cases hf⟩
      · exact (congrArg Prod.snd hm).symm

/-- The part of `apply_setup_request` after the setup. -/
theorem steadily_afterSetup : Steadily (do
    let vmState ← Control.call (host env net p).detectState
    Control.access fun s => ((), (host env net p).setVmState vmState s)
    let _ ← Control.call (host env net p).runtimeStatus
    pure ()) :=
  Steadily.bind (steadily_manage preserves_detect) fun _ =>
    (steadily_setVmState _).bind fun _ => steadily_runtimeStatus.bind fun _ => steadily_pure _

/-- `apply_setup_request`, by what its setup does. -/
theorem wp_applySetupRequest {seen : VmState} {request : SetupRequest} {P : Machine → Prop}
    (hP : ∀ {m m'}, P m → Steady m m' → P m') (hstart : P w.host)
    (hprepare : ∀ w' tarball, w'.host = w.host → (request.rootfs = .none → tarball = none) →
      wp (Control.call (prepare env p tarball)) (fun _ w'' => P w''.host) (fun _ w'' => P w''.host)
        w') :
    wp (Control.applySetupRequest (host env net p) cfg seen request) (fun _ w' => P w'.host)
      (fun _ w' => P w'.host) w := by
  unfold Control.applySetupRequest
  rw [wp_bind]
  refine Control.wp_lift (fun _ _ => ?_) fun _ => hstart
  rw [wp_bind]
  refine wp_mono (resolveRootfsSource_host request.rootfs) ?_ fun _ _ hw => hw.symm ▸ hstart
  intro tarball w₁ hw₁
  obtain ⟨hhost, hnone⟩ := hw₁
  rw [wp_bind]
  refine Control.wp_lift (fun _ _ => ?_) fun _ => hhost.symm ▸ hstart
  rw [wp_bind, Control.wp_record, wp_bind]
  refine wp_mono (hprepare _ tarball hhost hnone) ?_ fun _ _ hw => hw
  intro _ w₂ hw₂
  exact wp_mono (steadily_afterSetup w₂) (fun _ _ hs => hP hw₂ hs) fun _ _ hs => hP hw₂ hs

/-- Without a rootfs in the request, nothing is activated. -/
theorem applySetupRequest_steady {seen : VmState} {request : SetupRequest}
    (h : request.rootfs = .none) :
    Steadily (Control.applySetupRequest (host env net p) cfg seen request) := by
  intro w
  refine wp_applySetupRequest Steady.trans (Steady.refl w.host) fun w' tarball hw' hnone => ?_
  rw [hnone h, ← hw']
  exact prepare_none w'

theorem applySetupRequest_prepared {seen : VmState} {request : SetupRequest}
    (h : Plain w.host.setup.fs) :
    wp (Control.applySetupRequest (host env net p) cfg seen request)
      (fun _ w' => Prepared p w.host w'.host) (fun _ w' => Prepared p w.host w'.host) w := by
  refine wp_applySetupRequest Prepared.steady ⟨h, .inl rfl⟩ fun w' tarball hw' _ => ?_
  rw [← hw'] at h ⊢
  exact prepare_spec h tarball

end Setup

/-! ## Whole runs -/

section Runs

variable {env : Env} {cfg : Control.Config} {clients : Nat → ClientConfig} {s s' : Sys}

structure Inv (s : Sys) : Prop where
  plain : Plain s.machine.setup.fs
  /-- A client that was told `Ready` has sent no rootfs. -/
  ready : ∀ p told seen request, s.streams p = .waiting told seen (some request) →
    told = .ready → request.rootfs = .none
  one : ∀ p q, (s.streams p).ToldCold → (s.streams q).ToldCold → p = q
  activated : s.machine.activated = [] ∨
    s.machine.activated.length = 1 ∧ Marked s.machine.setup.fs ∧ ∀ q, ¬ (s.streams q).ToldCold

theorem inv_init {w : Setup.World} (h : Plain w.fs) (vmState : VmState) :
    Inv (init w vmState) where
  plain := h
  ready _ _ _ _ h := by cases h
  one _ _ h := h.elim
  activated := .inl rfl

/-- A step of stream `p` that activates nothing and after which `p` is told `Cold` only if it
    was before. -/
theorem Inv.steady {p : Nat} {m : Machine} {stream : Stream} (h : Inv s)
    (hm : Steady s.machine m)
    (hready : ∀ told seen request, stream = .waiting told seen (some request) → told = .ready →
      request.rootfs = .none)
    (hcold : stream.ToldCold → (s.streams p).ToldCold) :
    Inv ⟨m, Function.update s.streams p stream⟩ := by
  have hback : ∀ q, (Function.update s.streams p stream q).ToldCold → (s.streams q).ToldCold := by
    intro q hq
    by_cases hqp : q = p
    · subst hqp
      rw [Function.update_self] at hq
      exact hcold hq
    · rw [Function.update_of_ne hqp] at hq
      exact hq
  refine ⟨h.plain.of_eq hm.marker, ?_, fun q r hq hr => h.one q r (hback q hq) (hback r hr), ?_⟩
  · intro q told seen request hq
    by_cases hqp : q = p
    · subst hqp
      exact hready told seen request ((Function.update_self ..).symm.trans hq)
    · exact h.ready q told seen request ((Function.update_of_ne hqp ..).symm.trans hq)
  · rcases h.activated with hnone | ⟨hone, hmarked, hno⟩
    · exact .inl (hm.activated.trans hnone)
    · exact .inr ⟨by rw [hm.activated]; exact hone, hmarked.of_eq hm.marker,
        fun q hq => hno q (hback q hq)⟩

theorem not_toldCold_applied (r : Except Control.Stop Unit) : ¬ (Stream.applied r).ToldCold := by
  cases r <;> exact id

theorem applied_ne_waiting (r : Except Control.Stop Unit) (told : VmState)
    (seen : Option VmState) (request : Option SetupRequest) :
    Stream.applied r ≠ .waiting told seen request := by
  cases r <;> simp [Stream.applied]

/-- A client that is told `Cold` is the only one with a setup to come. -/
theorem Inv.told {p : Nat} {m : Machine} (h : Inv s) (hm : Steady s.machine m)
    (hcold : detectState env s.machine.setup.fs = .cold)
    (hno : ∀ q, ¬ (s.streams q).ToldCold) :
    Inv ⟨m, Function.update s.streams p (.waiting .cold none none)⟩ := by
  have honly : ∀ q, (Function.update s.streams p (.waiting .cold none none) q).ToldCold →
      q = p := by
    intro q hq
    by_cases hqp : q = p
    · exact hqp
    · rw [Function.update_of_ne hqp] at hq
      exact absurd hq (hno q)
  refine ⟨h.plain.of_eq hm.marker, ?_, fun q r hq hr => (honly q hq).trans (honly r hr).symm, ?_⟩
  · intro q told seen request hq
    by_cases hqp : q = p
    · subst hqp
      cases (Function.update_self ..).symm.trans hq
    · exact h.ready q told seen request ((Function.update_of_ne hqp ..).symm.trans hq)
  · rcases h.activated with hnone | ⟨-, hmarked, -⟩
    · exact .inl (hm.activated.trans hnone)
    · rw [hmarked.ready] at hcold
      cases hcold

theorem inv_attest {p : Nat} {net : Net} (hplan : ∀ n, env.plan n = none) (h : Inv s)
    (hok : OneAtATime env s (.attest p net))
    (hstep : step env cfg clients s (.attest p net) = some s') : Inv s' := by
  simp only [step] at hstep
  split at hstep
  · cases hstep
    have hspec : wp (Control.buildAttestation (host env net p) cfg) _ _ ⟨s.machine, []⟩ :=
      buildAttestation_spec hplan _
    unfold wp at hspec
    generalize Prog.exec (Control.buildAttestation (host env net p) cfg) ⟨s.machine, []⟩ = r
      at hspec ⊢
    obtain ⟨result, w'⟩ := r
    cases result with
    | error stop => exact h.steady hspec (fun _ _ _ heq => by cases heq) fun hf => hf.elim
    | ok payload =>
        obtain ⟨hm, hstate⟩ := hspec
        show Inv ⟨w'.host, Function.update s.streams p (.waiting payload.state none none)⟩
        cases hstate' : payload.state with
        | cold => exact h.told hm (hstate.symm.trans hstate') (hok (hstate.symm.trans hstate'))
        | ready => exact h.steady hm (fun _ _ _ heq => by cases heq) (by intro hf; cases hf)
  · cases hstep

theorem inv_remember {p : Nat} (h : Inv s)
    (hstep : step env cfg clients s (.remember p) = some s') : Inv s' := by
  simp only [step] at hstep
  split at hstep
  · next told request hp =>
      cases hstep
      refine h.steady (.refl _) (fun told' seen request' heq => ?_) fun hcold => ?_
      · cases heq
        exact h.ready p _ _ _ hp
      · rw [hp]
        exact hcold
  · cases hstep

theorem inv_request {p : Nat} {here : Local} (h : Inv s)
    (hstep : step env cfg clients s (.request p here) = some s') : Inv s' := by
  simp only [step] at hstep
  split at hstep
  · next told seen hp =>
      cases hstep
      cases hreq : setupRequest here (clients p) told false with
      | error e => exact h.steady (.refl _) (fun _ _ _ heq => by cases heq) fun hf => hf.elim
      | ok request =>
          refine h.steady (.refl _) (fun told' seen' request' heq hready => ?_) fun hcold => ?_
          · cases heq
            rw [hready] at hreq
            exact setupRequest_ready hreq
          · rw [hp]
            exact hcold
  · cases hstep

theorem host_of_wp {x : Control.M Machine α} {P : Machine → Prop} {w : Control.World Machine}
    (h : wp x (fun _ w' => P w'.host) (fun _ w' => P w'.host) w) : P (Prog.exec x w).2.host := by
  unfold wp at h
  split at h
  · next heq => rw [heq]; exact h
  · next heq => rw [heq]; exact h

/-- The setup of the one client that was told `Cold`. -/
theorem Inv.prepared {p : Nat} {m : Machine} {result : Except Control.Stop Unit} (h : Inv s)
    (hm : Prepared p s.machine m) (hcold : (s.streams p).ToldCold) :
    Inv ⟨m, Function.update s.streams p (.applied result)⟩ := by
  have hnone : s.machine.activated = [] :=
    h.activated.resolve_right fun hact => hact.2.2 p hcold
  have hno : ∀ q, ¬ (Function.update s.streams p (.applied result) q).ToldCold := by
    intro q hq
    by_cases hqp : q = p
    · subst hqp
      rw [Function.update_self] at hq
      exact not_toldCold_applied result hq
    · rw [Function.update_of_ne hqp] at hq
      exact hqp (h.one q p hq hcold)
  refine ⟨hm.plain, ?_, fun q _ hq => absurd hq (hno q), ?_⟩
  · intro q told seen request hq
    by_cases hqp : q = p
    · subst hqp
      exact absurd ((Function.update_self ..).symm.trans hq) (applied_ne_waiting _ _ _ _)
    · exact h.ready q told seen request ((Function.update_of_ne hqp ..).symm.trans hq)
  · rcases hm.activated with hsame | ⟨hnew, hmarked⟩
    · exact .inl (hsame.trans hnone)
    · exact .inr ⟨by rw [hnew, hnone]; rfl, hmarked, hno⟩

theorem inv_apply {p : Nat} {net : Net} (h : Inv s)
    (hstep : step env cfg clients s (.apply p net) = some s') : Inv s' := by
  simp only [step] at hstep
  split at hstep
  · next told seen request hp =>
      cases hstep
      cases told with
      | ready =>
          have hrootfs := h.ready p _ _ _ hp rfl
          exact h.steady (host_of_wp (applySetupRequest_steady hrootfs ⟨s.machine, []⟩))
            (fun _ _ _ heq => absurd heq (applied_ne_waiting _ _ _ _))
            fun hf => absurd hf (not_toldCold_applied _)
      | cold =>
          have hplain : Plain (Control.World.mk s.machine []).host.setup.fs := h.plain
          exact h.prepared (host_of_wp (applySetupRequest_prepared hplain)) (by rw [hp]; rfl)
  · cases hstep

theorem inv_drop {p : Nat} (h : Inv s) (hstep : step env cfg clients s (.drop p) = some s') :
    Inv s' := by
  simp only [step] at hstep
  split at hstep
  · cases hstep
  · cases hstep
    exact h.steady (.refl _) (fun _ _ _ heq => by cases heq) fun hf => hf.elim

theorem inv_step {l : Label} (hplan : ∀ n, env.plan n = none) (h : Inv s)
    (hok : OneAtATime env s l) (hstep : step env cfg clients s l = some s') : Inv s' := by
  cases l with
  | attest p net => exact inv_attest hplan h hok hstep
  | remember p => exact inv_remember h hstep
  | request p here => exact inv_request h hstep
  | apply p net => exact inv_apply h hstep
  | drop p => exact inv_drop h hstep

end Runs

/-- Cold boots without a failing operation: as long as no client is told `Cold` while another
    one that was told `Cold` has its setup still to come, at most one payload becomes the active
    rootfs, and a client that was told `Cold` finds none of another client. -/
theorem activated_once {env : Env} (hplan : ∀ n, env.plan n = none) (cfg : Control.Config)
    (clients : Nat → ClientConfig) {w : Setup.World} (hw : Plain w.fs) (vmState : VmState)
    {labels : List Label} {s : Sys}
    (hrun : Run (step env cfg clients) (OneAtATime env) (init w vmState) labels s) :
    s.machine.activated.length ≤ 1 ∧
      ∀ p, (s.streams p).ToldCold → s.machine.activated = [] := by
  have hinv : Inv s := hrun.inv Inv (fun _ _ _ hs hok hstep => inv_step hplan hs hok hstep)
    (inv_init hw vmState)
  rcases hinv.activated with hnone | ⟨hone, -, hno⟩
  · exact ⟨by rw [hnone]; exact Nat.zero_le 1, fun _ _ => hnone⟩
  · exact ⟨Nat.le_of_eq hone, fun p hp => absurd hp (hno p)⟩

/-- A machine in production mode on which nothing fails; an archive has one file, with its own
    bytes. -/
def machineEnv : Env where
  cfg := { dataDir := "/data", rootMountDir := "/data/rootfs", testMode := false }
  plan := fun _ => none
  unpack := fun data es => (("id", .file data) :: es, true)
  links := fun _ => none
  poll := fun _ => .alive

def online : Net where
  exportKeyingMaterial := .ok []
  fetchOidcToken := fun _ => .ok "jwt"
  downloadRootfsTarball := fun _ => .error "offline"
  write := fun _ => .ok ()
  debug := fun _ => ""

/-- A client's machine with the payload `data`. -/
def holding (data : Bytes) : Local where
  expandTilde := .ok
  read := fun _ => .ok data
  parseUrl := fun _ => .error "relative URL without a base"

def twoClients : Nat → ClientConfig := fun _ => ⟨some "rootfs.tar", none, some ""⟩

/-- What follows the attestation of client `p`. -/
def setUp (p : Nat) (data : Bytes) : List Label :=
  [.remember p, .request p (holding data), .apply p online]

/-- One client boots the machine, then another one connects. -/
theorem activated_once_inTurn :
    ∃ labels s, Run (step machineEnv ⟨false, some ""⟩ twoClients) (OneAtATime machineEnv)
        (init emptyWorld .cold) labels s ∧
      s.streams 0 = .closed true ∧ s.streams 1 = .closed true ∧ s.machine.activated = [0] ∧
      s.machine.activated.length ≤ 1 := by
  have hrun : Run (step machineEnv ⟨false, some ""⟩ twoClients) (OneAtATime machineEnv)
      (init emptyWorld .cold)
      ([.attest 0 online] ++ setUp 0 [0] ++ [.attest 1 online] ++ setUp 1 [1]) _ :=
    .cons (fun _ _ h => h) rfl (.cons trivial rfl (.cons trivial rfl (.cons trivial rfl
      (.cons (by intro hcold; cases hcold) rfl (.cons trivial rfl (.cons trivial rfl
        (.cons trivial rfl (.nil _))))))))
  exact ⟨_, _, hrun, rfl, rfl, rfl,
    (activated_once (fun _ => rfl) _ _ (.inl rfl) _ hrun).1⟩

/-- Both clients are told `Cold` before either has sent its rootfs: the setup of the second one
    replaces the rootfs of the first one and its runtime. -/
theorem activated_twice :
    ∃ labels labels' s s', Run (step machineEnv ⟨false, some ""⟩ twoClients) Any
        (init emptyWorld .cold) labels s ∧
      s.streams 0 = .closed true ∧ s.machine.activated = [0] ∧
      s.machine.setup.fs .root =
        some (.dir [("home", .dir []), ("root", .dir []), ("id", .file [0])]) ∧
      Run (step machineEnv ⟨false, some ""⟩ twoClients) Any s labels' s' ∧
      s'.streams 1 = .closed true ∧ s'.machine.activated = [0, 1] ∧
      s'.machine.setup.fs .root =
        some (.dir [("home", .dir []), ("root", .dir []), ("id", .file [1])]) ∧
      s'.machine.setup.fs .previous = none ∧
      s'.machine.setup.runtime ≠ s.machine.setup.runtime := by
  have hfirst : Run (step machineEnv ⟨false, some ""⟩ twoClients) Any (init emptyWorld .cold)
      ([.attest 0 online, .attest 1 online] ++ setUp 0 [0]) _ := run_of_exec rfl
  exact ⟨_, setUp 1 [1], _, _, hfirst, rfl, rfl, rfl, run_of_exec rfl, rfl, rfl, rfl, rfl,
    by decide⟩

end FlyVault.Init.ColdBoots
