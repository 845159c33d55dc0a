/-
  Reprovisioning a machine that has a rootfs: `setup_and_prepare` with a payload, from the first
  operation to the last, for every way its operations are answered.

  * `activateStagedRoot_spec`, `setupAndPrepare_spec`: what is active after a run that returns,
    fails, or is cut short by the death of the process.
  * `atomic_reprovision`: with at most one failed operation, a call that fails leaves the old
    rootfs active exactly if the operation was neither the write of the provision marker after
    the promotion nor part of the removal of `rootfs.previous` after the start.

  A failure that the code does not notice, such as an `exists` that answers `false` because its
  `stat` failed, counts as a failed operation like any other.
-/
import FlyVault.Init.Activation

namespace FlyVault.Init.Setup

open FlyVault.Lib FlyVault.Protocol
open Prog (wp wp_bind wp_pure wp_throw wp_mono)

variable {env : Env} {step : Step} {w : World}

/-! ## How a run ends -/

/-- Every failure so far is one that leads back to the old rootfs. -/
def AllGuarded (w : World) : Prop := ∀ s ∈ w.failed, Guarded s

theorem AllGuarded.added {w' : World} (h : AllGuarded w) (hadded : Added Guarded w w') :
    AllGuarded w' := by
  obtain ⟨new, heq, hnew⟩ := hadded
  intro s hs
  rw [heq] at hs
  rcases List.mem_append.mp hs with hs | hs
  · exact hnew s hs
  · exact h s hs

/-- The new rootfs `es` is active, and nothing else is kept. Two unnoticed failures may spoil
    this. -/
def Done (env : Env) (es : Entries) (w : World) : Prop :=
  w.failed.length ≤ 1 ∨ ¬ Faulty env →
    Active es w.fs ∧ w.fs .previous = none ∧ AllGuarded w

/-- An activation of `es` over `es₀` failed. One failure leaves the old rootfs, or the new one if
    it is one of the two that are not guarded. -/
def Aborted (env : Env) (es₀ es : Entries) (w : World) : Prop :=
  (w.failed.length ≤ 1 → Marked w.fs ∧ (Active es₀ w.fs ∧ AllGuarded w ∨
      (w.failed = [.mark] ∨ w.failed = [.discard]) ∧ Active es w.fs)) ∧
    (¬ Faulty env → ActiveOffLinks env es₀ w.fs ∨ ActiveOffLinks env es w.fs)

theorem aborted_of_old {es₀ es : Entries} (hactive : Active es₀ w.fs) (hmarked : Marked w.fs)
    (hguarded : AllGuarded w) : Aborted env es₀ es w :=
  ⟨fun _ => ⟨hmarked, .inl ⟨hactive, hguarded⟩⟩, fun _ => .inl hactive.offLinks⟩

theorem died_of_old {es₀ es : Entries} {d : Death} (hactive : Active es₀ w.fs) (hd : d.Safe) :
    Died env es₀ es d w :=
  fun _ => .inr (.inr ⟨hd, .inl hactive.offLinks⟩)

section Relabel

variable {es₀ es₁ es : Entries} (h : OffFallback es₀ es₁)
include h

theorem Active.of_offFallback {fs : Fs Slot} (ha : Active es₁ fs) : Active es₀ fs := by
  obtain ⟨es', hroot, hoff⟩ := ha
  exact ⟨es', hroot, h.trans hoff⟩

theorem ActiveOffLinks.of_offFallback {fs : Fs Slot} (ha : ActiveOffLinks env es₁ fs) :
    ActiveOffLinks env es₀ fs := by
  obtain ⟨es', hroot, hoff⟩ := ha
  exact ⟨es', hroot, h.offLinks.trans hoff⟩

theorem Aborted.of_offFallback (ha : Aborted env es₁ es w) : Aborted env es₀ es w := by
  refine ⟨fun hle => ?_, fun hf => ?_⟩
  · obtain ⟨hmarked, hold | hnew⟩ := ha.1 hle
    · exact ⟨hmarked, .inl ⟨hold.1.of_offFallback h, hold.2⟩⟩
    · exact ⟨hmarked, .inr hnew⟩
  · exact (ha.2 hf).imp_left fun hold => hold.of_offFallback h

theorem Died.of_offFallback {d : Death} (hd : Died env es₁ es d w) : Died env es₀ es d w := by
  intro hf
  rcases hd hf with hgap | htorn | ⟨hs, hactive⟩
  · exact .inl hgap
  · exact .inr (.inl htorn)
  · exact .inr (.inr ⟨hs, hactive.imp_left fun hold => hold.of_offFallback h⟩)

end Relabel

/-- Two operations were made to fail. -/
def Spoiled (env : Env) (w : World) : Prop := Faulty env ∧ 2 ≤ w.failed.length

theorem Spoiled.done {es : Entries} (h : Spoiled env w) : Done env es w := by
  rintro (hle | hf)
  · have := h.2
    omega
  · exact absurd h.1 hf

theorem Spoiled.aborted {es₀ es : Entries} (h : Spoiled env w) : Aborted env es₀ es w := by
  refine ⟨fun hle => ?_, fun hf => absurd h.1 hf⟩
  have := h.2
  omega

/-- Nothing is claimed of what runs after two failures. -/
theorem Within.spoiled {α : Type} {S : Step → Prop} {x : M α} {es₀ es : Entries}
    (hx : Within env S x) (h : Spoiled env w) :
    wp x (fun _ w' => Done env es w')
      (Ends (fun w' => Aborted env es₀ es w') fun d w' => Died env es₀ es d w') w := by
  have hlater : ∀ {w' : World}, Added S w w' → Spoiled env w' := fun hadded =>
    ⟨h.1, Nat.le_trans h.2 hadded.length_le⟩
  exact wp_mono (hx w) (fun _ _ h' => (hlater h').done) fun _ _ h' =>
    h'.imp (fun h' => (hlater h').aborted) fun _ _ hf => absurd h.1 hf

/-! ## From the promotion on -/

theorem eq_singleton_of_cons {w' : World} {s : Step} (h : w'.failed = s :: w.failed)
    (hle : w'.failed.length ≤ 1) : w'.failed = [s] := by
  rw [h, List.length_cons] at hle
  have hnil : w.failed = [] := List.eq_nil_of_length_eq_zero (by omega)
  rw [h, hnil]

theorem within_finish (hadRoot : Bool) : Within env (fun _ => True)
    (do storeProvisionMarker env .mark; startNew env hadRoot) := by
  refine (within_storeProvisionMarker trivial).bind fun _ =>
    (within_ensureRuntimeStarted trivial).attempt.bind fun r => ?_
  cases r with
  | ok _ => exact within_removePathIfExists trivial _
  | error err => exact (within_recover hadRoot err).mono fun _ _ => trivial

theorem StartFailed.aborted {es es₀ : Entries} {w' : World} (h : StartFailed env es es₀ w w')
    (hguarded : AllGuarded w) (hready : w.failed = [] → SourcesReady w.fs) :
    Aborted env es₀ es w' := by
  rcases h with ⟨hupset, hactive, hmarked, w₁, -, hfailed⟩ |
    ⟨hadded, hoff, w₁, hadded₁, hunready, hadded₂, hback⟩
  · exact ⟨fun hle => ⟨hmarked, .inr ⟨.inr (eq_singleton_of_cons hfailed hle), hactive⟩⟩,
      fun hf => absurd hupset.1 hf⟩
  · refine ⟨fun hle => ?_, fun hf => .inl (hoff.resolve_left hf)⟩
    -- the start logged a failure, or one was logged before it
    have hpos : w₁.failed ≠ [] := by
      intro hnil
      have hnil₀ : w.failed = [] := by
        have hle := hadded₁.length_le
        rw [hnil] at hle
        exact List.eq_nil_of_length_eq_zero (Nat.le_zero.mp hle)
      exact hunready (hnil.trans hnil₀.symm) (hready hnil₀)
    have hsame : w'.failed = w₁.failed := by
      by_contra hne
      have := hadded₂.length_lt hne
      have := List.length_pos_iff.mpr hpos
      omega
    obtain ⟨hactive, hmarked⟩ := hback hsame
    exact ⟨hmarked, .inl ⟨hactive, hguarded.added hadded⟩⟩

theorem finish_spec {es es₀ : Entries} (hroot : w.fs .root = some (.dir es))
    (hlinks : env.cfg.testMode = true → Links env es)
    (hprev : w.fs .previous = some (.dir es₀))
    (hlinks₀ : env.cfg.testMode = true → Links env es₀) (hmarked : Marked w.fs)
    (hstaging : w.fs .staging = none) (hguarded : AllGuarded w)
    (hready : w.failed = [] → SourcesReady w.fs) :
    wp (do storeProvisionMarker env .mark; startNew env true) (fun _ w' => Done env es w')
      (Ends (fun w' => Aborted env es₀ es w') fun d w' => Died env es₀ es d w') w := by
  rw [wp_bind]
  refine wp_mono (storeProvisionMarker_spec hmarked) ?_ fun _ _ h => h.imp ?_ ?_
  · rintro - w₁ ⟨hmarked₁, hkept, hfailed⟩
    have hguarded₁ : AllGuarded w₁ := fun s hs => hguarded s (hfailed ▸ hs)
    refine wp_mono (startNew_spec ((hkept _ (by simp)).trans hroot) hlinks
      ((hkept _ (by simp)).trans hprev) hlinks₀ hmarked₁ ((hkept _ (by simp)).trans hstaging)) ?_
      fun _ _ h => h.imp ?_ ?_
    · rintro - w₂ ⟨hactive, hprev₂, hadded⟩ -
      exact ⟨hactive, hprev₂, hguarded₁.added hadded⟩
    · intro hfail
      refine hfail.aborted hguarded₁ fun hnil m => ?_
      rw [hkept _ (by simp)]
      exact hready (hfailed.symm.trans hnil) m
    · exact fun _ hdied => hdied
  · rintro ⟨hmarked₁, hkept, hfailed, hf⟩
    have hactive := active_of_root ((hkept _ (by simp)).trans hroot)
    exact ⟨fun hle => ⟨hmarked₁, .inr ⟨.inl (eq_singleton_of_cons hfailed hle), hactive⟩⟩,
      fun hnf => absurd hf hnf⟩
  · rintro d ⟨hs, hfs⟩ -
    exact .inr (.inr ⟨by simp [Death.Safe, hs], .inr (active_of_root (hfs ▸ hroot)).offLinks⟩)

/-- The same without a previous rootfs, after a failure nobody noticed. -/
theorem finish_alone {es es₀ : Entries} (hf : Faulty env) (hroot : w.fs .root = some (.dir es))
    (hlinks : env.cfg.testMode = true → Links env es) (hmarked : Marked w.fs)
    (hguarded : AllGuarded w) (hone : 1 ≤ w.failed.length)
    (hready : w.failed.length ≤ 1 → SourcesReady w.fs) :
    wp (do storeProvisionMarker env .mark; startNew env true) (fun _ w' => Done env es w')
      (Ends (fun w' => Aborted env es₀ es w') fun d w' => Died env es₀ es d w') w := by
  by_cases hle : w.failed.length ≤ 1
  · rw [wp_bind]
    refine wp_mono (storeProvisionMarker_spec hmarked) ?_ fun _ _ h => h.imp ?_ fun _ _ hnf =>
      absurd hf hnf
    · rintro - w₁ ⟨-, hkept, hfailed⟩
      refine wp_mono (startNew_alone ((hkept _ (by simp)).trans hroot) hlinks fun m => ?_) ?_
        fun _ _ h => h.imp ?_ fun _ _ hnf => absurd hf hnf
      · rw [hkept _ (by simp)]
        exact hready hle m
      · rintro - w₂ ⟨hactive, hprev, hadded⟩ -
        exact ⟨hactive, hprev, AllGuarded.added (fun s hs => hguarded s (hfailed ▸ hs)) hadded⟩
      · intro hgrew
        rw [hfailed] at hgrew
        exact Spoiled.aborted ⟨hf, by omega⟩
    · rintro ⟨-, -, hfailed, -⟩
      refine Spoiled.aborted ⟨hf, ?_⟩
      rw [hfailed, List.length_cons]
      omega
  · exact (within_finish true).spoiled ⟨hf, by omega⟩

/-! ## The whole activation -/

/-- The active rootfs has been set aside. -/
theorem promotion_spec {es es₀ : Entries} (hroot : w.fs .root = none)
    (hprev : w.fs .previous = some (.dir es₀))
    (hlinks₀ : env.cfg.testMode = true → Links env es₀)
    (hstaging : w.fs .staging = some (.dir es))
    (hlinks : env.cfg.testMode = true → Links env es) (hmarked : Marked w.fs)
    (hguarded : AllGuarded w) (hready : w.failed = [] → SourcesReady w.fs) :
    wp (do
        promote env true
        storeProvisionMarker env .mark
        startNew env true) (fun _ w' => Done env es w')
      (Ends (fun w' => Aborted env es₀ es w') fun d w' => Died env es₀ es d w') w := by
  rw [wp_bind]
  refine wp_mono ((within_promote true).with (promote_spec hroot hstaging hprev hmarked)) ?_
    fun _ _ h => h.imp ?_ ?_
  · rintro - w₁ ⟨⟨hfs, hfailed⟩, hadded⟩
    have hrest : ∀ k, k ≠ .staging → k ≠ .root → w₁.fs k = w.fs k := fun k h h' => by
      rw [hfs, Function.update_of_ne h', Function.update_of_ne h]
    refine finish_spec (by rw [hfs, Function.update_self]) hlinks
      ((hrest _ (by simp) (by simp)).trans hprev) hlinks₀
      (hmarked.of_eq (hrest _ (by simp) (by simp))) ?_ (hguarded.added hadded) fun hnil m => ?_
    · rw [hfs, Function.update_of_ne (by simp), Function.update_self]
    · rw [hrest _ (by simp) (by simp)]
      exact hready (hfailed.symm.trans hnil) m
  · rintro ⟨⟨hupset, hback⟩, hadded⟩
    refine ⟨fun hle => ?_, fun hnf => absurd hupset.1 hnf⟩
    obtain ⟨hroot₁, hmarked₁, -⟩ := hback (by omega)
    exact ⟨hmarked₁, .inl ⟨active_of_root hroot₁, hguarded.added hadded⟩⟩
  · rintro d ⟨hf | ⟨hs, hfs⟩, -⟩ hnf
    · exact absurd hf hnf
    · exact .inl ⟨.inl hs, hfs ▸ hroot, hfs ▸ hmarked⟩

/-- The active rootfs was not found, so the staged one is renamed over it. -/
theorem promotion_over {es es₀ : Entries} (hf : Faulty env)
    (hstaging : w.fs .staging = some (.dir es))
    (hlinks : env.cfg.testMode = true → Links env es) (hmarked : Marked w.fs)
    (hguarded : AllGuarded w) (hone : 1 ≤ w.failed.length)
    (hready : w.failed.length ≤ 1 → SourcesReady w.fs) :
    wp (do
        promote env true
        storeProvisionMarker env .mark
        startNew env true) (fun _ w' => Done env es w')
      (Ends (fun w' => Aborted env es₀ es w') fun d w' => Died env es₀ es d w') w := by
  rw [wp_bind]
  refine wp_mono ((within_promote true).with (promote_over hstaging)) ?_
    fun _ _ h => h.imp ?_ fun _ _ hnf => absurd hf hnf
  · rintro - w₁ ⟨⟨hfs, hfailed⟩, hadded⟩
    have hrest : ∀ k, k ≠ .staging → k ≠ .root → w₁.fs k = w.fs k := fun k h h' => by
      rw [hfs, Function.update_of_ne h', Function.update_of_ne h]
    refine finish_alone hf (by rw [hfs, Function.update_self]) hlinks
      (hmarked.of_eq (hrest _ (by simp) (by simp))) (hguarded.added hadded) (hfailed ▸ hone)
      fun hle m => ?_
    rw [hrest _ (by simp) (by simp)]
    exact hready (hfailed ▸ hle) m
  · rintro ⟨hgrew, -⟩
    exact Spoiled.aborted ⟨hf, by omega⟩

/-- The two renames and what follows. -/
theorem moves_spec {es es₀ : Entries} (hroot : w.fs .root = some (.dir es₀))
    (hlinks₀ : env.cfg.testMode = true → Links env es₀) (hprev : w.fs .previous = none)
    (hstaging : w.fs .staging = some (.dir es))
    (hlinks : env.cfg.testMode = true → Links env es) (hmarked : Marked w.fs)
    (hguarded : AllGuarded w) (hready : w.failed = [] → SourcesReady w.fs) :
    wp (do
        setAside env true
        promote env true
        storeProvisionMarker env .mark
        startNew env true) (fun _ w' => Done env es w')
      (Ends (fun w' => Aborted env es₀ es w') fun d w' => Died env es₀ es d w') w := by
  rw [wp_bind]
  refine wp_mono ((within_setAside true).with (setAside_spec hroot hprev)) ?_
    fun _ _ h => h.imp ?_ ?_
  · rintro - w₁ ⟨⟨hfs, hfailed⟩ | ⟨hfs, hfailed, hf⟩, hadded⟩
    · have hrest : ∀ k, k ≠ .root → k ≠ .previous → w₁.fs k = w.fs k := fun k h h' => by
        rw [hfs, Function.update_of_ne h', Function.update_of_ne h]
      refine promotion_spec ?_ (by rw [hfs, Function.update_self]) hlinks₀
        ((hrest _ (by simp) (by simp)).trans hstaging) hlinks
        (hmarked.of_eq (hrest _ (by simp) (by simp))) (hguarded.added hadded) fun hnil m => ?_
      · rw [hfs, Function.update_of_ne (by simp), Function.update_self]
      · rw [hrest _ (by simp) (by simp)]
        exact hready (hfailed.symm.trans hnil) m
    · have hlen : w₁.failed.length = w.failed.length + 1 := by rw [hfailed, List.length_cons]
      refine promotion_over hf (hfs ▸ hstaging) hlinks (hfs ▸ hmarked)
        (hguarded.added hadded) (by omega) fun hle => ?_
      rw [hfs]
      exact hready (List.eq_nil_of_length_eq_zero (by omega))
  · rintro ⟨⟨hfs, -⟩, hadded⟩
    exact aborted_of_old (active_of_root (hfs ▸ hroot)) (hfs ▸ hmarked) (hguarded.added hadded)
  · rintro d ⟨⟨hs, hfs⟩, -⟩
    exact died_of_old (active_of_root (hfs ▸ hroot)) (by simp [Death.Safe, hs])

theorem Links.of_offFallback {es es' : Entries} (h : Links env es) (hoff : OffFallback es es') :
    Links env es' := by
  intro m
  have hne : m.name ≠ fallbackMarker := by cases m <;> decide
  exact (hoff m.name hne).trans (h m)

/-- What follows the look at the active rootfs. -/
theorem within_replace (hadRoot : Bool) : Within env (fun _ => True) (do
    stopRuntime env .stop
    removePathIfExists env .dropStale (.at .previous)
    setAside env hadRoot
    promote env hadRoot
    storeProvisionMarker env .mark
    startNew env hadRoot) :=
  (within_stopRuntime trivial).bind fun _ =>
    (within_removePathIfExists trivial _).bind fun _ =>
      ((within_setAside hadRoot).mono fun _ _ => trivial).bind fun _ =>
        ((within_promote hadRoot).mono fun _ _ => trivial).bind fun _ => within_finish hadRoot

theorem replace_spec {es es₀ : Entries} (hroot : w.fs .root = some (.dir es₀))
    (hlinks₀ : env.cfg.testMode = true → Links env es₀)
    (hstaging : w.fs .staging = some (.dir es))
    (hlinks : env.cfg.testMode = true → Links env es) (hmarked : Marked w.fs)
    (hguarded : AllGuarded w) (hready : w.failed = [] → SourcesReady w.fs) :
    wp (do
        stopRuntime env .stop
        removePathIfExists env .dropStale (.at .previous)
        setAside env true
        promote env true
        storeProvisionMarker env .mark
        startNew env true) (fun _ w' => Done env es w')
      (Ends (fun w' => Aborted env es₀ es w') fun d w' => Died env es₀ es d w') w := by
  have hstop : Within env (· = .stop) (stopRuntime env .stop) :=
    within_stopRuntime (S := (· = .stop)) rfl
  have hdrop : Within env (· = .dropStale) (removePathIfExists env .dropStale (.at .previous)) :=
    within_removePathIfExists (S := (· = .dropStale)) rfl _
  rw [wp_bind]
  refine wp_mono (hstop.with (stopRuntime_spec hroot)) ?_ fun _ _ h => h.imp ?_ ?_
  · rintro - w₁ ⟨⟨⟨es₁, hroot₁, hoff⟩, hkept₁, hfailed₁⟩, -⟩
    have hguarded₁ : AllGuarded w₁ := fun s hs => hguarded s (hfailed₁ ▸ hs)
    have hmarked₁ : Marked w₁.fs := hmarked.of_eq (hkept₁ _ (by simp))
    rw [wp_bind]
    refine wp_mono (hdrop.with (removePathIfExists_spec .previous)) ?_ fun _ _ h => h.imp ?_ ?_
    · rintro - w₂ ⟨⟨hfs₂, hfailed₂⟩, -⟩
      have hrest : ∀ k, k ≠ .previous → w₂.fs k = w₁.fs k := fun k hk => by
        rw [hfs₂, Function.update_of_ne hk]
      refine wp_mono (moves_spec ((hrest _ (by simp)).trans hroot₁)
        (fun ht => (hlinks₀ ht).of_offFallback hoff) (by rw [hfs₂, Function.update_self])
        ?_ hlinks (hmarked₁.of_eq (hrest _ (by simp)))
        (fun s hs => hguarded₁ s (hfailed₂ ▸ hs)) fun hnil m => ?_) (fun _ _ h => h)
        fun _ _ h => h.imp (fun h => h.of_offFallback hoff) fun _ h => h.of_offFallback hoff
      · rw [hrest _ (by simp), hkept₁ _ (by simp), hstaging]
      · rw [hrest _ (by simp), hkept₁ _ (by simp)]
        exact hready (by rw [← hfailed₁, ← hfailed₂, hnil]) m
    · rintro ⟨⟨hkept₂, -, -⟩, hadded⟩
      have hactive : Active es₀ _ := ⟨es₁, (hkept₂ _ (by simp)).trans hroot₁, hoff⟩
      exact aborted_of_old hactive (hmarked₁.of_eq (hkept₂ _ (by simp)))
        (hguarded₁.added (hadded.mono (by rintro _ rfl; decide)))
    · rintro d ⟨htorn, -, hs, -⟩
      exact died_of_old ⟨es₁, (htorn.kept .root (by simp)).trans hroot₁, hoff⟩
        (by simp [Death.Safe, hs])
  · rintro ⟨⟨hfs, -⟩, hadded⟩
    exact aborted_of_old (active_of_root (hfs ▸ hroot)) (hfs ▸ hmarked)
      (hguarded.added (hadded.mono (by rintro _ rfl; decide)))
  · rintro d ⟨hfs, -, hs, -⟩
    exact died_of_old (active_of_root (hfs ▸ hroot)) (by simp [Death.Safe, hs])

theorem activateStagedRoot_spec {es es₀ : Entries} (hroot : w.fs .root = some (.dir es₀))
    (hlinks₀ : env.cfg.testMode = true → Links env es₀)
    (hstaging : w.fs .staging = some (.dir es))
    (hlinks : env.cfg.testMode = true → Links env es) (hmarked : Marked w.fs)
    (hguarded : AllGuarded w) (hready : w.failed = [] → SourcesReady w.fs) :
    wp (activateStagedRoot env) (fun _ w' => Done env es w')
      (Ends (fun w' => Aborted env es₀ es w') fun d w' => Died env es₀ es d w') w := by
  have hinspect : Within env (· = .inspect) (hadExistingRoot env) :=
    (within_pathExists (S := (· = .inspect)) rfl _).bind fun b =>
      within_ite (within_pure _) (within_pathExists (S := (· = .inspect)) rfl _)
  unfold activateStagedRoot
  rw [wp_bind]
  refine wp_mono (hinspect.with (hadExistingRoot_spec hmarked hroot)) ?_
    fun _ _ h => h.imp (fun h => h.1.elim) ?_
  · rintro b w₁ ⟨⟨hfs, rfl | hspoiled⟩, hadded⟩
    · have hguarded₁ := hguarded.added (hadded.mono (by rintro _ rfl; decide))
      refine replace_spec (hfs ▸ hroot) hlinks₀ (hfs ▸ hstaging) hlinks (hfs ▸ hmarked) hguarded₁
        fun hnil => ?_
      have hle := hadded.length_le
      rw [hnil] at hle
      rw [hfs]
      exact hready (List.eq_nil_of_length_eq_zero (Nat.le_zero.mp hle))
    · -- both `stat`s failed
      exact (within_replace b).spoiled ⟨hspoiled.1, by have := hspoiled.2; omega⟩
  · rintro d ⟨hfs, -, hs, -⟩
    exact died_of_old (active_of_root (hfs ▸ hroot)) (by simp [Death.Safe, hs])

/-! ## A machine with a rootfs, and a payload -/

/-- The state `Ready` with active rootfs `es₀`, at the start of a call. In test mode the rootfs
    has the links that preparing it made. -/
structure Ready (env : Env) (es₀ : Entries) (w : World) : Prop where
  root : w.fs .root = some (.dir es₀)
  marked : Marked w.fs
  links : env.cfg.testMode = true → Links env es₀
  clean : w.failed = []

/-- `es` is what `data` was staged as; exactly `newRootfs` if no operation of staging failed. -/
structure Staged (env : Env) (data : Bytes) (w : World) (es : Entries) (w' : World) : Prop where
  tree : ∀ name, (∀ m : Mount, name ≠ m.name) → es.find name = (env.unpack data []).1.find name
  links : env.cfg.testMode = true → Links env es
  eq_newRootfs : .stage ∉ w'.failed →
    ∀ name, es.find name = newRootfs env w.fs (env.unpack data []).1 name

theorem within_activateStagedRoot : Within env (fun _ => True) (activateStagedRoot env) :=
  ((within_pathExists trivial _).bind fun _ =>
    within_ite (within_pure _) (within_pathExists trivial _)).bind within_replace

/-- Every way a reprovisioning ends. -/
theorem setupAndPrepare_spec {es₀ : Entries} (h : Ready env es₀ w) (data : Bytes) :
    wp (setupAndPrepare env (some data))
      (fun _ w' => ∃ es, Staged env data w es w' ∧ Done env es w')
      (Ends (fun w' => Active es₀ w'.fs ∧ Marked w'.fs ∧ AllGuarded w' ∨
          ∃ es, Staged env data w es w' ∧ Aborted env es₀ es w')
        fun d w' => Crashing env ∧ (d.Safe ∧ Active es₀ w'.fs ∨
          ∃ es, Staged env data w es w' ∧ Died env es₀ es d w')) w := by
  have hdetect : Within env (· = .detect) (pathExists env .detect (.at .provisioned)) :=
    within_pathExists (S := (· = .detect)) rfl _
  have hstage : Within env (· = .stage) (stageRootfs env data) :=
    within_stageRootfs (S := (· = .stage)) rfl data
  have hguarded : AllGuarded w := by
    intro s hs
    rw [h.clean] at hs
    cases hs
  show wp (do
    let _ ← pathExists env .detect (.at .provisioned)
    stageRootfs env data
    activateStagedRoot env) _ _ w
  rw [wp_bind]
  refine wp_mono (hdetect.with (pathExists_spec _)) ?_ fun _ _ h' => h'.imp (fun h' => h'.1.elim) ?_
  · rintro b w₁ ⟨⟨hfs₁, -⟩, hadded₁⟩
    have hguarded₁ := hguarded.added (hadded₁.mono (by rintro _ rfl; decide))
    rw [wp_bind]
    refine wp_mono (hstage.with (stageRootfs_spec data)) ?_ fun _ _ h' => h'.imp ?_ ?_
    · rintro - w₂ ⟨⟨es, hstaging, htree, hlinks, hkept, hclean⟩, hadded₂⟩
      rw [hfs₁] at hkept hclean
      have hguarded₂ := hguarded₁.added (hadded₂.mono (by rintro _ rfl; decide))
      -- no operation of staging failed if the whole run logs none
      have hstaged : ∀ {w' : World}, Added (fun _ => True) w₂ w' → Staged env data w es w' :=
        fun hadded => ⟨htree, hlinks, fun hno => (hclean (hadded₂.eq_of_not_mem hadded hno)).2⟩
      refine wp_mono (within_activateStagedRoot.with (activateStagedRoot_spec
        ((hkept _ (by simp [Beside])).trans h.root) h.links hstaging hlinks
        (h.marked.of_eq (hkept _ (by simp [Beside]))) hguarded₂ fun hnil => ?_)) ?_
        fun _ _ h' => h'.imp ?_ ?_
      · refine (hclean ?_).1
        have hle := hadded₂.length_le
        rw [hnil] at hle
        rw [hnil, List.eq_nil_of_length_eq_zero (Nat.le_zero.mp hle)]
      · rintro - w' ⟨hdone, hadded⟩
        exact ⟨es, hstaged hadded, hdone⟩
      · rintro ⟨haborted, hadded⟩
        exact .inr ⟨es, hstaged hadded, haborted⟩
      · rintro d ⟨hdied, hcrash, -, hadded⟩
        exact ⟨hcrash, .inr ⟨es, hstaged hadded, hdied⟩⟩
    · rintro ⟨hkept, hadded₂⟩
      rw [hfs₁] at hkept
      exact .inl ⟨active_of_root ((hkept _ (by simp [Beside])).trans h.root),
        h.marked.of_eq (hkept _ (by simp [Beside])),
        hguarded₁.added (hadded₂.mono (by rintro _ rfl; decide))⟩
    · rintro d ⟨hkept, hcrash, hs, -⟩
      rw [hfs₁] at hkept
      exact ⟨hcrash, .inl ⟨by simp [Death.Safe, hs],
        active_of_root ((hkept _ (by simp [Beside])).trans h.root)⟩⟩
  · rintro d ⟨⟨hfs, -⟩, hcrash, hs, -⟩
    exact ⟨hcrash, .inl ⟨by simp [Death.Safe, hs], active_of_root (hfs ▸ h.root)⟩⟩

/-! ## Atomicity -/

/-- The active rootfs is the payload: what was extracted, except at the mount points and for the
    fallback marker, with the links in test mode. -/
def HoldsPayload (env : Env) (tree : Entries) (fs : Fs Slot) : Prop :=
  ∃ es : Entries, fs .root = some (.dir es) ∧ (env.cfg.testMode = true → Links env es) ∧
    ∀ name, name ≠ fallbackMarker → (∀ m : Mount, name ≠ m.name) → es.find name = tree.find name

/-- All or nothing: an error leaves the old rootfs in the state `Ready`, a success the new one
    and no previous one. -/
def Atomic (env : Env) (es₀ tree : Entries) : Except Stop Unit × World → Prop
  | (.ok (), w) => HoldsPayload env tree w.fs ∧ w.fs .previous = none
  | (.error _, w) => Active es₀ w.fs ∧ detectState env w.fs = .ready

theorem Staged.holdsPayload {data : Bytes} {w' : World} {es : Entries}
    (h : Staged env data w es w') (hactive : Active es w'.fs) :
    HoldsPayload env (env.unpack data []).1 w'.fs := by
  obtain ⟨es', hroot, hoff⟩ := hactive
  refine ⟨es', hroot, fun ht => (h.links ht).of_offFallback hoff, fun name hn hm => ?_⟩
  rw [hoff name hn, h.tree name hm]

theorem Marked.ready {fs : Fs Slot} (h : Marked fs) : detectState env fs = .ready := by
  unfold detectState
  rw [h.pathExists, if_pos rfl]

theorem AllGuarded.not_mem {w' : World} (h : AllGuarded w') :
    .mark ∉ w'.failed ∧ .discard ∉ w'.failed :=
  ⟨fun hm => (h _ hm).1 rfl, fun hd => (h _ hd).2 rfl⟩

/-- After an error that leaves the new rootfs, only an equal one will do. -/
theorem Staged.atomic_iff {data : Bytes} {es₀ es : Entries} {stop : Stop} {w' : World}
    (h : Staged env data w es w') (hfailed : w'.failed = [.mark] ∨ w'.failed = [.discard])
    (hactive : Active es w'.fs) (hmarked : Marked w'.fs) :
    Atomic env es₀ (env.unpack data []).1 (.error stop, w') ↔
      (.mark ∉ w'.failed ∧ .discard ∉ w'.failed) ∨ ∀ name, name ≠ fallbackMarker →
        newRootfs env w.fs (env.unpack data []).1 name = es₀.find name := by
  obtain ⟨es', hroot, hoff⟩ := hactive
  have hexact := h.eq_newRootfs (by rcases hfailed with hf | hf <;> simp [hf])
  have hnew : ∀ name, name ≠ fallbackMarker →
      es'.find name = newRootfs env w.fs (env.unpack data []).1 name := fun name hn => by
    rw [hoff name hn, hexact name]
  constructor
  · rintro ⟨⟨es'', hroot', hold⟩, -⟩
    rw [hroot] at hroot'
    cases hroot'
    exact .inr fun name hn => by rw [← hnew name hn, hold name hn]
  · rintro (⟨hm, hd⟩ | hsame)
    · rcases hfailed with hf | hf
      · exact absurd (by simp [hf]) hm
      · exact absurd (by simp [hf]) hd
    · refine ⟨⟨es', hroot, fun name hn => ?_⟩, hmarked.ready⟩
      rw [hnew name hn, hsame name hn]

/-- With one failed operation or none, a reprovisioning is atomic exactly if the operation was
    neither the write of the marker after the promotion nor part of the removal of the previous
    rootfs after the start (or the new rootfs is the old one). -/
theorem atomic_reprovision {es₀ : Entries} (h : Ready env es₀ w) (hcrash : ¬ Crashing env)
    (data : Bytes)
    (hsingle : (Prog.exec (setupAndPrepare env (some data)) w).2.failed.length ≤ 1) :
    Atomic env es₀ (env.unpack data []).1 (Prog.exec (setupAndPrepare env (some data)) w) ↔
      (.mark ∉ (Prog.exec (setupAndPrepare env (some data)) w).2.failed ∧
        .discard ∉ (Prog.exec (setupAndPrepare env (some data)) w).2.failed) ∨
      ∀ name, name ≠ fallbackMarker →
        newRootfs env w.fs (env.unpack data []).1 name = es₀.find name := by
  have hspec := setupAndPrepare_spec h data
  unfold Prog.wp at hspec
  generalize Prog.exec (setupAndPrepare env (some data)) w = r at hspec hsingle ⊢
  obtain ⟨result, w'⟩ := r
  cases result with
  | ok u =>
      obtain ⟨es, hstaged, hdone⟩ := hspec
      obtain ⟨hactive, hprev, hguarded⟩ := hdone (.inl hsingle)
      exact iff_of_true ⟨hstaged.holdsPayload hactive, hprev⟩ (.inl hguarded.not_mem)
  | error stop =>
      cases stop with
      | crash d => exact absurd hspec.1 hcrash
      | error msg =>
          rcases hspec with ⟨hactive, hmarked, hguarded⟩ | ⟨es, hstaged, haborted⟩
          · exact iff_of_true ⟨hactive, hmarked.ready⟩ (.inl hguarded.not_mem)
          · obtain ⟨hmarked, ⟨hactive, hguarded⟩ | ⟨hfailed, hactive⟩⟩ := haborted.1 hsingle
            · exact iff_of_true ⟨hactive, hmarked.ready⟩ (.inl hguarded.not_mem)
            · exact hstaged.atomic_iff hfailed hactive hmarked

/-- A machine in production mode whose `n`-th operation fails, and an archive with one file. -/
def failingAt (n : Nat) : Env where
  cfg := { dataDir := "/data", rootMountDir := "/data/rootfs", testMode := false }
  plan := fun k => if k = n then some (.error none) else none
  unpack := fun _ es => (("new", .file []) :: es, true)
  links := fun _ => none
  poll := fun _ => .alive

/-- A provisioned machine whose rootfs has one file. -/
def provisionedWorld : World where
  fs := fun
    | .root => some (.dir [("old", .file [])])
    | .provisioned => some (.file [0x31])
    | _ => none
  runtime := none
  ops := 0
  failed := []

/-- A machine with an empty data directory. -/
def emptyWorld : World where
  fs := fun _ => none
  runtime := none
  ops := 0
  failed := []

theorem ready_provisionedWorld (env : Env) (h : env.cfg.testMode = false) :
    Ready env [("old", .file [])] provisionedWorld :=
  ⟨rfl, ⟨_, rfl⟩, fun ht => absurd (h.symm.trans ht) (by decide), rfl⟩

theorem not_crashing_failingAt (n : Nat) : ¬ Crashing (failingAt n) := by
  rintro ⟨k, left, hk⟩
  simp only [failingAt] at hk
  split at hk
  · cases hk
  · cases hk

/-- The launch fails: the machine is back at the old rootfs. -/
theorem atomic_reprovision_launch :
    Atomic (failingAt 23) [("old", .file [])] [("new", .file [])]
      (Prog.exec (setupAndPrepare (failingAt 23) (some [])) provisionedWorld) := by
  have hfailed : (Prog.exec (setupAndPrepare (failingAt 23) (some []))
      provisionedWorld).2.failed = [.start] := rfl
  refine (atomic_reprovision (ready_provisionedWorld _ rfl) (not_crashing_failingAt 23) []
    (by rw [hfailed]; decide)).mpr (.inl ?_)
  rw [hfailed]
  decide

/-- The write of the marker fails after the promotion, or the removal of the previous rootfs
    after the start. The call fails and the new rootfs is active. -/
theorem not_atomic_mark_discard :
    (Prog.exec (setupAndPrepare (failingAt 21) (some [])) provisionedWorld).2.failed = [.mark] ∧
      ¬ Atomic (failingAt 21) [("old", .file [])] [("new", .file [])]
        (Prog.exec (setupAndPrepare (failingAt 21) (some [])) provisionedWorld) ∧
    (Prog.exec (setupAndPrepare (failingAt 25) (some [])) provisionedWorld).2.failed =
      [.discard] ∧
      ¬ Atomic (failingAt 25) [("old", .file [])] [("new", .file [])]
        (Prog.exec (setupAndPrepare (failingAt 25) (some [])) provisionedWorld) := by
  have hlost : ∀ {env : Env} {r : Except Stop Unit × World} {stop : Stop}, r.1 = .error stop →
      r.2.fs .root = some (.dir [("home", .dir []), ("root", .dir []), ("new", .file [])]) →
        ¬ Atomic env [("old", .file [])] [("new", .file [])] r := by
    rintro env ⟨result, w⟩ stop rfl hroot ⟨⟨es, hroot', hoff⟩, -⟩
    rw [hroot] at hroot'
    cases hroot'
    have hold := hoff "old" (by decide)
    simp [Entries.find] at hold
  exact ⟨rfl, hlost rfl rfl, rfl, hlost rfl rfl⟩

end FlyVault.Init.Setup
