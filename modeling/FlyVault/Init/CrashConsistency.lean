/-
  What a restart finds when the process died during a reprovisioning.

  Boot looks only at the provision marker. `crash_consistent` says for every death of the process
  whether a machine that then reports `Ready` has a whole rootfs: it does, unless the process died
  between the two renames of the promotion, or on the way back after a start that failed, between
  the removal of the new rootfs and the rename of the previous one or in the middle of that
  removal.

  No operation is made to fail here; those that fail by themselves, such as the extraction of
  a broken archive, are part of the run.
-/
import FlyVault.Init.Reprovision

namespace FlyVault.Init.Setup

open FlyVault.Lib FlyVault.Protocol

variable {env : Env} {w : World}

/-- All of the old rootfs, or all that was extracted. The mount points of a new rootfs belong to
    the persistent layout. -/
def Whole (env : Env) (es₀ tree es : Entries) : Prop :=
  OffLinks env es₀ es ∨
    ∀ name, name ≠ fallbackMarker → (∀ m : Mount, name ≠ m.name) → es.find name = tree.find name

/-- What boot relies on: a machine that reports `Ready` has one of the two rootfs. -/
def Consistent (env : Env) (es₀ tree : Entries) (fs : Fs Slot) : Prop :=
  detectState env fs = .ready →
    ∃ es : Entries, fs .root = some (.dir es) ∧ Whole env es₀ tree es

theorem consistent_of_old {es₀ tree : Entries} {fs : Fs Slot}
    (h : ActiveOffLinks env es₀ fs) : Consistent env es₀ tree fs := by
  obtain ⟨es, hroot, hoff⟩ := h
  exact fun _ => ⟨es, hroot, .inl hoff⟩

theorem Staged.consistent {data : Bytes} {es₀ es : Entries} {w' : World}
    (h : Staged env data w es w') (hactive : ActiveOffLinks env es w'.fs) :
    Consistent env es₀ (env.unpack data []).1 w'.fs := by
  obtain ⟨es', hroot, hoff⟩ := hactive
  refine fun _ => ⟨es', hroot, .inr fun name hn hm => ?_⟩
  rw [hoff name hn fun _ => hm, h.tree name hm]

theorem not_consistent_of_none {es₀ tree : Entries} {fs : Fs Slot} (hroot : fs .root = none)
    (hmarked : Marked fs) : ¬ Consistent env es₀ tree fs := by
  intro h
  obtain ⟨es, hroot', -⟩ := h hmarked.ready
  rw [hroot] at hroot'
  cases hroot'

theorem consistent_iff_whole {es₀ tree es : Entries} {fs : Fs Slot}
    (hroot : fs .root = some (.dir es)) (hmarked : Marked fs) :
    Consistent env es₀ tree fs ↔ Whole env es₀ tree es := by
  constructor
  · intro h
    obtain ⟨es', hroot', hwhole⟩ := h hmarked.ready
    rw [hroot] at hroot'
    cases hroot'
    exact hwhole
  · exact fun h _ => ⟨es, hroot, h⟩

theorem Death.Safe.whole {d : Death} {es₀ tree : Entries} (h : d.Safe) :
    d.step ≠ .promote ∧ d.step ≠ .putBack ∧
      (d.step = .clearNew → ∀ left, d.left = some left → Whole env es₀ tree left) := by
  obtain ⟨hpromote, hputBack, hclear⟩ := h
  refine ⟨hpromote, hputBack, fun hs left hleft => ?_⟩
  rw [hclear hs] at hleft
  cases hleft

/-- Each of the ways to die, once the payload was staged. -/
theorem Died.consistent_iff {data : Bytes} {es₀ es : Entries} {d : Death} {w' : World}
    (h : Died env es₀ es d w') (hfaulty : ¬ Faulty env) (hstaged : Staged env data w es w') :
    Consistent env es₀ (env.unpack data []).1 w'.fs ↔
      d.step ≠ .promote ∧ d.step ≠ .putBack ∧
        (d.step = .clearNew → ∀ left, d.left = some left →
          Whole env es₀ (env.unpack data []).1 left) := by
  rcases h hfaulty with ⟨hs, hroot, hmarked⟩ | ⟨hs, ⟨left, hleft, hroot⟩, hmarked⟩ | ⟨hd, hactive⟩
  · refine iff_of_false (not_consistent_of_none hroot hmarked) ?_
    rintro ⟨hpromote, hputBack, -⟩
    exact hs.elim hpromote hputBack
  · rw [consistent_iff_whole hroot hmarked]
    constructor
    · intro hwhole
      refine ⟨by simp [hs], by simp [hs], fun _ left' hleft' => ?_⟩
      rw [hleft] at hleft'
      cases hleft'
      exact hwhole
    · exact fun hall => hall.2.2 hs left hleft
  · refine iff_of_true ?_ hd.whole
    rcases hactive with hold | hnew
    · exact consistent_of_old hold
    · exact hstaged.consistent hnew

/-- A death leaves a whole rootfs exactly if it is not in the gap between the renames of the
    promotion or of the way back, nor in the middle of the removal of the new rootfs with part
    of it gone. -/
theorem crash_consistent {es₀ : Entries} (h : Ready env es₀ w) (hfaulty : ¬ Faulty env)
    (data : Bytes) :
    Consistent env es₀ (env.unpack data []).1
        (Prog.exec (setupAndPrepare env (some data)) w).2.fs ↔
      ∀ d, (Prog.exec (setupAndPrepare env (some data)) w).1 = .error (.crash d) →
        d.step ≠ .promote ∧ d.step ≠ .putBack ∧
          (d.step = .clearNew → ∀ left, d.left = some left →
            Whole env es₀ (env.unpack data []).1 left) := by
  have hspec := setupAndPrepare_spec h data
  unfold Prog.wp at hspec
  generalize Prog.exec (setupAndPrepare env (some data)) w = r at hspec ⊢
  obtain ⟨result, w'⟩ := r
  cases result with
  | ok u =>
      obtain ⟨es, hstaged, hdone⟩ := hspec
      have hactive := (hdone (.inr hfaulty)).1
      exact iff_of_true (hstaged.consistent hactive.offLinks) (by rintro d ⟨⟩)
  | error stop =>
      cases stop with
      | error msg =>
          refine iff_of_true ?_ (by rintro d ⟨⟩)
          rcases hspec with ⟨hactive, -, -⟩ | ⟨es, hstaged, haborted⟩
          · exact consistent_of_old hactive.offLinks
          · rcases haborted.2 hfaulty with hold | hnew
            · exact consistent_of_old hold
            · exact hstaged.consistent hnew
      | crash d =>
          simp only [Except.error.injEq, Stop.crash.injEq, forall_eq']
          rcases hspec.2 with ⟨hd, hactive⟩ | ⟨es, hstaged, hdied⟩
          · exact iff_of_true (consistent_of_old hactive.offLinks) hd.whole
          · exact hdied.consistent_iff hfaulty hstaged

/-- A machine in production mode whose process dies at the `n`-th operation. -/
def dyingAt (n : Nat) : Env where
  cfg := { dataDir := "/data", rootMountDir := "/data/rootfs", testMode := false }
  plan := fun k => if k = n then some (.crash none) else none
  unpack := fun _ es => (("new", .file []) :: es, true)
  links := fun _ => none
  poll := fun _ => .alive

theorem not_faulty_dyingAt (n : Nat) : ¬ Faulty (dyingAt n) := by
  rintro ⟨k, residue, hk⟩
  simp only [dyingAt] at hk
  split at hk
  · cases hk
  · cases hk

/-- Death before the write of the marker: the restart finds the new rootfs. -/
theorem crash_consistent_marker :
    Consistent (dyingAt 21) [("old", .file [])] [("new", .file [])]
      (Prog.exec (setupAndPrepare (dyingAt 21) (some [])) provisionedWorld).2.fs := by
  refine (crash_consistent (ready_provisionedWorld _ rfl) (not_faulty_dyingAt 21) []).mpr ?_
  intro d hd
  have hresult : (Prog.exec (setupAndPrepare (dyingAt 21) (some [])) provisionedWorld).1 =
      .error (.crash ⟨.mark, none⟩) := rfl
  rw [hresult] at hd
  cases hd
  exact ⟨by decide, by decide, fun _ _ hleft => (by cases hleft)⟩

/-- Death between the two renames: the restart reports `Ready` and finds no rootfs. -/
theorem not_consistent_between_renames :
    (Prog.exec (setupAndPrepare (dyingAt 20) (some [])) provisionedWorld).1 =
        .error (.crash ⟨.promote, none⟩) ∧
      ¬ Consistent (dyingAt 20) [("old", .file [])] [("new", .file [])]
        (Prog.exec (setupAndPrepare (dyingAt 20) (some [])) provisionedWorld).2.fs :=
  ⟨rfl, not_consistent_of_none rfl ⟨_, rfl⟩⟩

end FlyVault.Init.Setup
