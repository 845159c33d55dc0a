/-
  A connection of init (`handle_connection`, `crates/init/src/quic.rs`): the streams the peer
  opens, in the order in which they are accepted, and what becomes of each.

  The flag `authenticated` is set by every control stream to what `handle_control_stream`
  returned, and every other stream is reset while it is `false`. A control stream that fails, a
  stream without a type byte and an unknown type end the connection; a control stream that waits
  for its peer keeps the streams after it waiting.

  * `stream_authorization`: a port-forward, console or exec-list stream gets past the check
    exactly if the latest control stream before it returned `true`, and a control stream
    returns `true` only after the two messages, the matching token and the setup.
-/
import Mathlib.Data.List.Induction
import FlyVault.Init.Control

namespace FlyVault.Init.Connection

open FlyVault.Lib FlyVault.Protocol FlyVault.Init.Control

def streamControl : UInt8 := 0x01

def streamPortForward : UInt8 := 0x02

def streamConsole : UInt8 := 0x03

def streamExecList : UInt8 := 0x04

/-- What became of a stream. -/
inductive Handled
  /-- A control stream: its log, and how `handle_control_stream` ended. -/
  | control (log : List Event) (result : Except Stop Bool)
  /-- Reset as unauthenticated. -/
  | rejected
  /-- Past the check; a console stream without a runtime is not served. -/
  | admitted (served : Bool)
  | unknown
  /-- The type byte could not be read. -/
  | unreadable
  deriving DecidableEq

variable {σ : Type}

/-- A stream that needs authentication. -/
def guarded (ty : UInt8) : Prop :=
  ty = streamPortForward ∨ ty = streamConsole ∨ ty = streamExecList

instance (ty : UInt8) : Decidable (guarded ty) := inferInstanceAs (Decidable (_ ∨ _ ∨ _))

/-- One pass of the loop of `handle_connection`: what becomes of the stream, and the flag and
    the state for the next pass if there is one. -/
def handleStream (host : Host σ) (cfg : Config) (authenticated : Bool) (s : σ) (recv : Recv) :
    Handled × Option (Bool × σ) :=
  match recv.readU8 "read stream type" with
  | .ok (ty, recv) =>
      if ty = streamControl then
        match (handleControlStream host cfg recv).exec ⟨s, []⟩ with
        | (.ok result, w) => (.control w.log (.ok result), some (result, w.host))
        | (.error stop, w) => (.control w.log (.error stop), none)
      else if guarded ty then
        if ¬ authenticated then (.rejected, some (authenticated, s))
        else if ty = streamConsole then
          match host.ensureLiveInnerInitPid s with
          | (.ok _, s) => (.admitted true, some (authenticated, s))
          | (.error _, s) => (.admitted false, some (authenticated, s))
        else (.admitted true, some (authenticated, s))
      else (.unknown, none)
  | _ => (.unreadable, none)

/-- The loop of `handle_connection` over the streams of the peer. -/
def handleStreams (host : Host σ) (cfg : Config) (authenticated : Bool) (s : σ) :
    List Recv → List Handled
  | [] => []
  | recv :: streams =>
      match handleStream host cfg authenticated s recv with
      | (handled, some (authenticated, s)) =>
          handled :: handleStreams host cfg authenticated s streams
      | (handled, none) => [handled]

/-- `handle_connection`. -/
def handleConnection (host : Host σ) (cfg : Config) (s : σ) (streams : List Recv) :
    List Handled :=
  handleStreams host cfg false s streams

/-! ## One stream -/

/-- The flag after a stream. -/
def nextAuthenticated (authenticated : Bool) : Handled → Bool
  | .control _ (.ok result) => result
  | .control _ (.error _) => false
  | _ => authenticated

/-- What becomes of a stream when the flag is `authenticated`. -/
structure StreamSpec (host : Host σ) (cfg : Config) (recv : Recv) (authenticated : Prop)
    (handled : Handled) : Prop where
  admitted : ∀ ty rest, recv.readU8 "read stream type" = .ok (ty, rest) → guarded ty →
    ((∃ served, handled = .admitted served) ↔ authenticated) ∧
      (handled = .rejected ↔ ¬ authenticated)
  authorized : ∀ log result, handled = .control log result → Authorized cfg log
  control : ∀ log, handled = .control log (.ok true) → ∃ recv₀ recv₁ recv₂ request,
    recv.readU8 "read stream type" = .ok (streamControl, recv₀) ∧
    ControlMessage.readFrom recv₀ = .ok (.requestAttestation, recv₁) ∧
    ControlMessage.readFrom recv₁ = .ok (.setupRequest request, recv₂) ∧
    cfg.accessToken = some request.accessToken ∧ SetUp host log

theorem not_guarded_streamControl : ¬ guarded streamControl := by decide

/-- A stream that is not a control stream. -/
theorem streamSpec_of_ne_control {host : Host σ} {cfg : Config} {recv : Recv}
    {authenticated : Prop} {handled : Handled}
    (hne : ∀ log result, handled ≠ .control log result)
    (h : ∀ ty rest, recv.readU8 "read stream type" = .ok (ty, rest) → guarded ty →
      ((∃ served, handled = .admitted served) ↔ authenticated) ∧
        (handled = .rejected ↔ ¬ authenticated)) :
    StreamSpec host cfg recv authenticated handled :=
  ⟨h, fun log result he => absurd he (hne log result), fun log he => absurd he (hne log _)⟩

theorem handleStream_spec (host : Host σ) (cfg : Config) (authenticated : Bool) (s : σ)
    (recv : Recv) :
    StreamSpec host cfg recv (authenticated = true)
      (handleStream host cfg authenticated s recv).1 := by
  unfold handleStream
  split
  · next ty rest hread =>
      split
      · next hty =>
          subst hty
          have hspec := handleControlStream_spec host cfg rest s
          unfold Prog.wp at hspec
          have hguard : ∀ ty rest, recv.readU8 "read stream type" = .ok (ty, rest) →
              ¬ guarded ty := by
            intro ty rest h
            rw [hread] at h
            cases h
            exact not_guarded_streamControl
          split
          · next result w hexec =>
              rw [hexec] at hspec
              refine ⟨fun ty rest h hg => absurd hg (hguard ty rest h), ?_, ?_⟩
              · rintro log result ⟨⟩
                exact hspec.1
              · rintro log ⟨⟩
                obtain ⟨recv₁, recv₂, request, h₁, h₂, htok, hsetup⟩ := hspec.2 rfl
                exact ⟨rest, recv₁, recv₂, request, hread, h₁, h₂, htok, hsetup⟩
          · next stop w hexec =>
              rw [hexec] at hspec
              refine ⟨fun ty rest h hg => absurd hg (hguard ty rest h), ?_, ?_⟩
              · rintro log result ⟨⟩
                exact hspec
              · rintro log ⟨⟩
      · split
        · split
          · next hauth =>
              exact streamSpec_of_ne_control (by simp) fun _ _ _ _ => by simp [hauth]
          · next hauth =>
              have htrue : authenticated = true := not_not.mp hauth
              have hadm : ∀ served, StreamSpec host cfg recv (authenticated = true)
                  (.admitted served) := fun served =>
                streamSpec_of_ne_control (by simp) fun _ _ _ _ => by simp [htrue]
              split
              · split
                · exact hadm _
                · exact hadm _
              · exact hadm _
        · next hng =>
            refine streamSpec_of_ne_control (by simp) fun ty' rest' h hg => ?_
            rw [hread] at h
            cases h
            exact absurd hg hng
  · next hno =>
      exact streamSpec_of_ne_control (by simp) fun ty rest h _ => absurd h (hno ty rest)

theorem handleStream_next {host : Host σ} {cfg : Config} {authenticated : Bool} {s : σ}
    {recv : Recv} {handled : Handled} {authenticated' : Bool} {s' : σ}
    (h : handleStream host cfg authenticated s recv = (handled, some (authenticated', s'))) :
    authenticated' = nextAuthenticated authenticated handled := by
  unfold handleStream at h
  split at h
  · split at h
    · split at h
      · cases h; rfl
      · cases h
    · split at h
      · split at h
        · cases h; rfl
        · split at h
          · split at h
            · cases h; rfl
            · cases h; rfl
          · cases h; rfl
      · cases h
  · cases h

/-! ## All streams of a connection -/

/-- The flag after some streams. -/
def authenticatedAfter (authenticated : Bool) (handled : List Handled) : Bool :=
  handled.foldl nextAuthenticated authenticated

/-- Every stream is handled with the flag that the streams before it have left. -/
theorem handleStreams_spec (host : Host σ) (cfg : Config) (streams : List Recv)
    (authenticated : Bool) (s : σ) (before : List Handled) (handled : Handled)
    (after : List Handled)
    (h : handleStreams host cfg authenticated s streams = before ++ handled :: after) :
    ∃ recv, streams[before.length]? = some recv ∧
      StreamSpec host cfg recv (authenticatedAfter authenticated before = true) handled := by
  induction streams generalizing authenticated s before with
  | nil => simp [handleStreams] at h
  | cons recv streams ih =>
      have hspec := handleStream_spec host cfg authenticated s recv
      unfold handleStreams at h
      split at h
      · next first authenticated' s' hstep =>
          rw [hstep] at hspec
          cases before with
          | nil =>
              cases h
              exact ⟨recv, rfl, hspec⟩
          | cons b before =>
              rw [List.cons_append, List.cons.injEq] at h
              obtain ⟨rfl, h⟩ := h
              rw [handleStream_next hstep] at h
              exact ih _ _ before h
      · next first hstep =>
          rw [hstep] at hspec
          cases before with
          | nil =>
              cases h
              exact ⟨recv, rfl, hspec⟩
          | cons b before => simp at h

/-- The latest control stream among `handled` returned `result`. -/
def LatestControl (handled : List Handled) (result : Bool) : Prop :=
  ∃ before log after, handled = before ++ .control log (.ok result) :: after ∧
    ∀ h ∈ after, ∀ log result, h ≠ .control log result

theorem latestControl_append_control {handled : List Handled} {log : List Event}
    {result : Except Stop Bool} {r : Bool} :
    LatestControl (handled ++ [.control log result]) r ↔ result = .ok r := by
  constructor
  · rintro ⟨before, log', after, h, hafter⟩
    rcases List.eq_nil_or_concat' after with rfl | ⟨after, last, rfl⟩
    · have := (List.append_inj' h rfl).2
      cases this
      rfl
    · rw [← List.cons_append, ← List.append_assoc] at h
      have := (List.append_inj' h rfl).2
      cases this
      exact absurd rfl (hafter _ (by simp) log result)
  · rintro rfl
    exact ⟨handled, log, [], rfl, fun _ h => (by cases h)⟩

theorem latestControl_append_other {handled : List Handled} {h : Handled}
    (hne : ∀ log result, h ≠ .control log result) {r : Bool} :
    LatestControl (handled ++ [h]) r ↔ LatestControl handled r := by
  constructor
  · rintro ⟨before, log', after, heq, hafter⟩
    rcases List.eq_nil_or_concat' after with rfl | ⟨after, last, rfl⟩
    · have := (List.append_inj' heq rfl).2
      exact absurd (List.cons.inj this).1 (hne _ _)
    · rw [← List.cons_append, ← List.append_assoc] at heq
      exact ⟨before, log', after, (List.append_inj' heq rfl).1,
        fun x hx => hafter x (by simp [hx])⟩
  · rintro ⟨before, log', after, rfl, hafter⟩
    refine ⟨before, log', after ++ [h], by simp, fun x hx => ?_⟩
    rcases List.mem_append.mp hx with hx | hx
    · exact hafter x hx
    · rw [List.mem_singleton.mp hx]
      exact hne

theorem authenticatedAfter_iff (handled : List Handled) :
    authenticatedAfter false handled = true ↔ LatestControl handled true := by
  induction handled using List.reverseRecOn with
  | nil => simp [authenticatedAfter, LatestControl]
  | append_singleton handled h ih =>
      unfold authenticatedAfter at ih ⊢
      rw [List.foldl_append, List.foldl_cons, List.foldl_nil]
      cases h with
      | control log result =>
          rw [latestControl_append_control]
          cases result <;> simp [nextAuthenticated]
      | _ =>
          rw [latestControl_append_other (by simp)]
          exact ih

/-- For every connection, every sequence of streams with every content, and every behaviour of
    the rest of the process: the stream handled after `before` is let past the check, if it
    needs authentication, exactly when the latest control stream of `before` returned `true`,
    and is reset otherwise. A control stream touches a rootfs only after a setup request with
    the configured token, and returns `true` only if its messages were the request for the
    attestation and a setup request with the configured token, and the setup succeeded. -/
theorem stream_authorization (host : Host σ) (cfg : Config) (s : σ) (streams : List Recv)
    (before : List Handled) (handled : Handled) (after : List Handled)
    (h : handleConnection host cfg s streams = before ++ handled :: after) :
    ∃ recv, streams[before.length]? = some recv ∧
      StreamSpec host cfg recv (LatestControl before true) handled := by
  obtain ⟨recv, hrecv, hspec⟩ := handleStreams_spec host cfg streams false s before handled after h
  exact ⟨recv, hrecv, propext (authenticatedAfter_iff before) ▸ hspec⟩

/-- A process in which everything succeeds. -/
def calmHost : Host Unit where
  exportKeyingMaterial := fun s => (.ok [], s)
  fetchOidcToken := fun _ s => (.ok "jwt", s)
  detectState := fun s => (.ok .ready, s)
  ensureLiveInnerInitPid := fun s => (.ok 7, s)
  runtimeStatus := fun s => (.ok .systemInit, s)
  vmState := fun s => (.ready, s)
  setVmState := fun _ s => s
  downloadRootfsTarball := fun _ s => (.ok [], s)
  setupAndPrepare := fun _ s => (.ok (), s)
  write := fun _ s => (.ok (), s)
  debug := fun _ => ""

/-- A console stream, then a control stream with the token, then a port-forward stream. -/
def reconnect : List Recv :=
  [⟨[streamConsole], false⟩,
    ⟨streamControl :: (ControlMessage.requestAttestation.toBytes ++
      (ControlMessage.setupRequest ⟨"t", .none⟩).toBytes), false⟩,
    ⟨[streamPortForward], false⟩]

theorem stream_authorization_reconnect :
    ∃ log, handleConnection calmHost ⟨false, some "t"⟩ () reconnect =
        [.rejected, .control log (.ok true), .admitted true] ∧
      LatestControl [.rejected, .control log (.ok true)] true := by
  obtain ⟨log, hrun⟩ : ∃ log, handleConnection calmHost ⟨false, some "t"⟩ () reconnect =
      [.rejected, .control log (.ok true), .admitted true] := ⟨_, rfl⟩
  refine ⟨log, hrun, ?_⟩
  obtain ⟨recv, hrecv, hspec⟩ := stream_authorization calmHost ⟨false, some "t"⟩ () reconnect
    [.rejected, .control log (.ok true)] (.admitted true) [] hrun
  cases hrecv
  exact (hspec.admitted streamPortForward _ rfl (by decide)).1.mp ⟨true, rfl⟩

end FlyVault.Init.Connection
