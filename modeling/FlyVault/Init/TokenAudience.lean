/-
  What the control stream of init does to the world outside it.

  `handleControlStream_keeps` is a frame rule for the handler of `Control`: what every call of
  its host keeps is kept by the whole stream, whatever the peer sends and wherever the stream
  stops. The token service needs to keep it for one audience only, the hex text of the keying
  material of this connection, since the handler asks for no other token.
-/
import FlyVault.Init.Control

namespace FlyVault.Init.Control

open FlyVault.Lib FlyVault.Protocol
open Prog (wp wp_bind wp_mono)

variable {σ α : Type} {I : σ → Prop}

/-- The invariant is kept, however the program ends. -/
def Keeps (I : σ → Prop) (x : M σ α) : Prop :=
  ∀ w, I w.host → wp x (fun _ w' => I w'.host) (fun _ w' => I w'.host) w

/-- Every call of the host keeps the invariant; a token is fetched for one audience. -/
structure Host.Keeps (host : Host σ) (exporter : Bytes) (I : σ → Prop) : Prop where
  exportKeyingMaterial : ∀ s, I s → I (host.exportKeyingMaterial s).2
  exported : ∀ s ekm, (host.exportKeyingMaterial s).1 = .ok ekm → ekm = exporter
  fetchOidcToken : ∀ s, I s → I (host.fetchOidcToken (hexEncode exporter) s).2
  detectState : ∀ s, I s → I (host.detectState s).2
  ensureLiveInnerInitPid : ∀ s, I s → I (host.ensureLiveInnerInitPid s).2
  runtimeStatus : ∀ s, I s → I (host.runtimeStatus s).2
  vmState : ∀ s, I s → I (host.vmState s).2
  setVmState : ∀ state s, I s → I (host.setVmState state s)
  downloadRootfsTarball : ∀ url s, I s → I (host.downloadRootfsTarball url s).2
  setupAndPrepare : ∀ rootfsTarball s, I s → I (host.setupAndPrepare rootfsTarball s).2
  write : ∀ bytes s, I s → I (host.write bytes s).2

theorem Keeps.exec {x : M σ α} (hx : Keeps I x) (w : World σ) (hw : I w.host) :
    I (x.exec w).2.host := by
  have hwp := hx w hw
  unfold wp at hwp
  split at hwp
  · next heq =>
      rw [heq]
      exact hwp
  · next heq =>
      rw [heq]
      exact hwp

theorem keeps_pure (a : α) : Keeps I (pure a : M σ α) := fun _ h => h

theorem keeps_throw (stop : Stop) : Keeps I (throw stop : M σ α) := fun _ h => h

theorem keeps_call {c : Call σ α} (hc : ∀ s, I s → I (c s).2) : Keeps I (call c) := by
  intro w hw
  have hafter := hc w.host hw
  refine wp_call (fun a h heq => ?_) fun e h heq => ?_
  · rw [heq] at hafter
    exact hafter
  · rw [heq] at hafter
    exact hafter

theorem keeps_access {f : σ → α × σ} (hf : ∀ s, I s → I (f s).2) : Keeps I (access f) :=
  fun w hw => wp_access.mpr (hf w.host hw)

theorem keeps_record (e : Event) : Keeps I (record e) := fun _ hw => wp_record.mpr hw

theorem keeps_lift (x : Except String α) : Keeps I (lift x) :=
  fun _ hw => wp_lift (fun _ _ => hw) fun _ => hw

theorem Keeps.bind {β : Type} {x : M σ α} {f : α → M σ β} (hx : Keeps I x)
    (hf : ∀ a, Keeps I (f a)) : Keeps I (x >>= f) := by
  intro w hw
  rw [wp_bind]
  exact wp_mono (hx w hw) (fun a w' hw' => hf a w' hw') fun _ _ hw' => hw'

theorem Keeps.mapErr {f : String → String} {x : M σ α} (hx : Keeps I x) :
    Keeps I (mapErr f x) :=
  fun w hw => wp_mapErr (wp_mono (hx w hw) (fun _ _ h => h) fun _ _ h _ => h)

theorem Keeps.attempt {x : M σ α} (hx : Keeps I x) : Keeps I (attempt x) :=
  fun w hw => wp_attempt (wp_mono (hx w hw) (fun _ _ h => h) fun _ _ h => ⟨fun _ => h, fun _ => h⟩)

section

variable {host : Host σ} {exporter : Bytes} (h : host.Keeps exporter I) (cfg : Config)

include h

theorem keeps_sendError (msg : String) : Keeps I (sendError host msg) := keeps_call (h.write _)

theorem keeps_resolveRootfsSource (source : RootfsSource) :
    Keeps I (resolveRootfsSource host source) := by
  refine (keeps_record _).bind fun _ => ?_
  cases source with
  | none => exact keeps_pure _
  | inline data => exact keeps_pure _
  | url url => exact (keeps_call (h.downloadRootfsTarball url)).bind fun _ => keeps_pure _

theorem keeps_refreshVmState : Keeps I (refreshVmState host) := by
  refine (keeps_call h.detectState).bind fun state =>
    (keeps_access (h.setVmState state)).bind fun _ => ?_
  split
  · exact (keeps_call h.ensureLiveInnerInitPid).mapErr.bind fun _ =>
      (keeps_call h.detectState).bind fun state =>
        (keeps_access (h.setVmState state)).bind fun _ => keeps_pure _
  · exact keeps_pure _

theorem keeps_buildAttestation : Keeps I (buildAttestation host cfg) := by
  -- the keying material has to be known before the token is asked for
  have hexported : ∀ w, I w.host → wp (mapErr (fun _ => "export tls keying material failed")
      (call host.exportKeyingMaterial)) (fun ekm w' => ekm = exporter ∧ I w'.host)
      (fun _ w' => I w'.host) w := by
    intro w hw
    have hafter := h.exportKeyingMaterial w.host hw
    have hekm := h.exported w.host
    refine wp_mapErr (wp_call (fun ekm s heq => ?_) fun e s heq _ => ?_)
    · rw [heq] at hafter hekm
      exact ⟨hekm ekm rfl, hafter⟩
    · rw [heq] at hafter
      exact hafter
  have hjwt : Keeps I (attestationJwt host cfg (hexEncode exporter)) := by
    unfold attestationJwt
    split
    · exact keeps_pure _
    · exact keeps_call h.fetchOidcToken
  intro w hw
  unfold buildAttestation
  rw [wp_bind]
  refine wp_mono (hexported w hw) (fun ekm w' hw' => ?_) fun _ _ hw' => hw'
  obtain ⟨rfl, hw'⟩ := hw'
  exact hjwt.bind (fun _ => (keeps_refreshVmState h).bind fun _ =>
    (keeps_call h.runtimeStatus).bind fun _ => keeps_pure _) w' hw'

theorem keeps_applySetupRequest (state : VmState) (request : SetupRequest) :
    Keeps I (applySetupRequest host cfg state request) :=
  (keeps_lift _).bind fun _ => (keeps_resolveRootfsSource h request.rootfs).bind fun _ =>
    (keeps_lift _).bind fun _ => (keeps_record _).bind fun _ =>
      (keeps_call (h.setupAndPrepare _)).bind fun _ => (keeps_call h.detectState).bind fun _ =>
        (keeps_access (h.setVmState _)).bind fun _ => (keeps_call h.runtimeStatus).bind fun _ =>
          keeps_pure _

theorem keeps_onAwaitAttestation (message : ControlMessage) :
    Keeps I (onAwaitAttestation host cfg message) := by
  have hother : ∀ text, Keeps I (do sendError host text; pure (none : Option VmState)) :=
    fun text => (keeps_sendError h text).bind fun _ => keeps_pure _
  cases message with
  | requestAttestation =>
      exact (keeps_buildAttestation h cfg).bind fun _ => (keeps_call (h.write _)).bind fun _ =>
        (keeps_access h.vmState).bind fun _ => keeps_pure _
  | attestation payload => exact hother _
  | setupRequest request => exact hother _
  | setupComplete => exact hother _
  | error text => exact hother _

theorem keeps_onAwaitSetupRequest (state : VmState) (message : ControlMessage) :
    Keeps I (onAwaitSetupRequest host cfg state message) := by
  have hother : ∀ text, Keeps I (do sendError host text; pure false) :=
    fun text => (keeps_sendError h text).bind fun _ => keeps_pure _
  cases message with
  | setupRequest request =>
      refine (keeps_applySetupRequest h cfg state request).attempt.bind fun applied => ?_
      cases applied with
      | ok => exact (keeps_call (h.write _)).bind fun _ => keeps_pure _
      | error err => exact hother _
  | requestAttestation => exact hother _
  | attestation payload => exact hother _
  | setupComplete => exact hother _
  | error text => exact hother _

theorem keeps_nextMessage (recv : Recv) {next : ControlMessage → Recv → M σ Bool}
    (hnext : ∀ message recv, Keeps I (next message recv)) :
    Keeps I (nextMessage host recv next) := by
  unfold nextMessage
  split
  · exact (keeps_record _).bind fun _ => hnext _ _
  · exact (keeps_sendError h _).attempt.bind fun _ => keeps_pure _
  · exact keeps_throw _
  · exact keeps_throw _

/-- What every call of the host keeps is kept by the stream. -/
theorem handleControlStream_keeps (recv : Recv) : Keeps I (handleControlStream host cfg recv) := by
  refine keeps_nextMessage h recv fun message recv => ?_
  refine (keeps_onAwaitAttestation h cfg message).bind fun state => ?_
  cases state with
  | none => exact keeps_pure _
  | some state =>
      exact keeps_nextMessage h recv fun message _ => keeps_onAwaitSetupRequest h cfg state message

end

/-! ## The audience -/

theorem digitChar_inj {a b : Nat} (ha : a < 16) (hb : b < 16)
    (h : Nat.digitChar a = Nat.digitChar b) : a = b := by
  have hall : ∀ a < 16, ∀ b < 16, Nat.digitChar a = Nat.digitChar b → a = b := by decide
  exact hall a ha b hb h

/-- The hex text tells the bytes. -/
theorem hexEncode_inj {as bs : Bytes} (h : hexEncode as = hexEncode bs) : as = bs := by
  have hchars := String.ofList_inj.mp h
  clear h
  induction as generalizing bs with
  | nil =>
      cases bs with
      | nil => rfl
      | cons b bs => simp at hchars
  | cons a as ih =>
      cases bs with
      | nil => simp at hchars
      | cons b bs =>
          simp only [List.flatMap_cons, List.cons_append, List.nil_append, List.cons.injEq]
            at hchars
          obtain ⟨hhigh, hlow, hrest⟩ := hchars
          have ha := UInt8.toNat_lt a
          have hb := UInt8.toNat_lt b
          have hhigh' := digitChar_inj (by omega) (by omega) hhigh
          have hlow' := digitChar_inj (by omega) (by omega) hlow
          have hbyte : a = b := UInt8.toNat_inj.mp (by omega)
          rw [hbyte, ih hrest]

end FlyVault.Init.Control
