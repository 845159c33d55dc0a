/-
  The steps of provisioning: staging a rootfs, starting and stopping the runtime, and the moves
  of `activate_staged_root` and `restore_previous_root`.

  * `stageRootfs_spec`: staging leaves the active rootfs alone, and what it stages is the
    extracted archive except at the mount points;
  * `ensureRuntimeStarted_spec`: starting the runtime changes the rootfs only at the fallback
    marker, unless renewing a link fails half-way.
-/
import FlyVault.Init.SetupLayout

namespace FlyVault.Init.Setup

open FlyVault.Lib FlyVault.Protocol
open Prog (wp wp_bind wp_pure wp_throw wp_mono)

variable {env : Env} {step : Step} {w : World}

/-- The two rootfs have the same entries, except for the fallback marker and, in test mode, the
    links to the persistent directories. -/
def OffLinks (env : Env) (es es' : Entries) : Prop :=
  ∀ name, name ≠ fallbackMarker → (env.cfg.testMode = true → ∀ m : Mount, name ≠ m.name) →
    es'.find name = es.find name

/-- The two rootfs have the same entries, except for the fallback marker. -/
def OffFallback (es es' : Entries) : Prop :=
  ∀ name, name ≠ fallbackMarker → es'.find name = es.find name

/-- The mount points are the links of test mode. -/
def Links (env : Env) (es : Entries) : Prop :=
  ∀ m : Mount, es.find m.name = some (.symlink (env.cfg.path (.persist m)))

/-- All persistent directories are there. -/
def SourcesReady (fs : Fs Slot) : Prop := ∀ m : Mount, ∃ d, fs (.persist m) = some (.dir d)

/-- A rootfs place and the persistent directories. -/
def Beside (k : Slot) (j : Slot) : Prop := j = k ∨ ∃ m, j = .persist m

theorem OffFallback.refl (es : Entries) : OffFallback es es := fun _ _ => rfl

theorem OffFallback.trans {es₁ es₂ es₃ : Entries} (h : OffFallback es₁ es₂)
    (h' : OffFallback es₂ es₃) : OffFallback es₁ es₃ :=
  fun name hn => (h' name hn).trans (h name hn)

theorem OffLinks.trans {es₁ es₂ es₃ : Entries} (h : OffLinks env es₁ es₂)
    (h' : OffLinks env es₂ es₃) : OffLinks env es₁ es₃ :=
  fun name hn hm => (h' name hn hm).trans (h name hn hm)

theorem OffFallback.offLinks {es es' : Entries} (h : OffFallback es es') :
    OffLinks env es es' :=
  fun name hn _ => h name hn

/-- The active rootfs is `es`, up to the fallback marker. -/
def Active (es : Entries) (fs : Fs Slot) : Prop :=
  ∃ es' : Entries, fs .root = some (.dir es') ∧ OffFallback es es'

/-- The active rootfs is `es`, up to the fallback marker and the links. -/
def ActiveOffLinks (env : Env) (es : Entries) (fs : Fs Slot) : Prop :=
  ∃ es' : Entries, fs .root = some (.dir es') ∧ OffLinks env es es'

theorem active_of_root {es : Entries} {fs : Fs Slot} (h : fs .root = some (.dir es)) :
    Active es fs := ⟨es, h, .refl es⟩

theorem Active.of_eq {es : Entries} {fs fs' : Fs Slot} (h : Active es fs)
    (heq : fs' .root = fs .root) : Active es fs' := by
  obtain ⟨es', hroot, hoff⟩ := h
  exact ⟨es', heq.trans hroot, hoff⟩

theorem Active.offLinks {es : Entries} {fs : Fs Slot} (h : Active es fs) :
    ActiveOffLinks env es fs := by
  obtain ⟨es', hroot, hoff⟩ := h
  exact ⟨es', hroot, hoff.offLinks⟩

theorem Kept.beside {k : Slot} {m : Mount} {fs fs' : Fs Slot} (h : Kept (Around k m) fs fs') :
    Kept (Beside k) fs fs' := by
  refine h.mono fun j hj => ?_
  rcases hj with hj | hj
  · exact .inl hj
  · exact .inr ⟨m, hj⟩

theorem Mount.name_ne : Mount.root.name ≠ Mount.home.name := by decide

/-! ## Staging -/

theorem resetDir_spec :
    wp (resetDir env .stage (.at .staging))
      (fun _ w' => w'.fs = Function.update w.fs .staging (some (.dir [])))
      (Ends (fun w' => Kept (Beside .staging) w.fs w'.fs)
        fun _ w' => Kept (Beside .staging) w.fs w'.fs) w := by
  have hsub : ∀ k, k = Slot.staging → Beside .staging k := fun k hk => .inl hk
  unfold resetDir
  rw [wp_bind]
  refine wp_mono (removePathIfExists_spec .staging) ?_
    fun _ _ h => h.imp (fun h => h.1.mono hsub) fun _ h => h.kept.mono hsub
  rintro - w₁ ⟨hfs, -⟩
  have hkept : Kept (Beside .staging) w.fs w₁.fs :=
    hfs ▸ (kept_update_self _ _ _).mono hsub
  have hop : Fs.createDirAll env.links (.at .staging) w₁.fs =
      .ok ((), Function.update w.fs .staging (some (.dir []))) := by
    simp [Fs.createDirAll, hfs, Fs.parentExists, Path.at, Fs.get, Fs.put]
  refine wp_context (wp_perform ?_ ?_ ?_ ?_)
  · intro r fs h
    rw [hop] at h
    cases h
    rfl
  · exact fun _ _ => hkept
  · exact fun _ _ => hkept
  · exact fun _ => hkept

theorem extractRootfs_spec {data : Bytes} (hk : w.fs .staging = some (.dir [])) :
    wp (extractRootfs env data)
      (fun _ w' => w'.fs = Function.update w.fs .staging (some (.dir (env.unpack data []).1)))
      (Ends (fun w' => Kept (Beside .staging) w.fs w'.fs)
        fun _ w' => Kept (Beside .staging) w.fs w'.fs) w := by
  have hkept : ∀ n, Kept (Beside .staging) w.fs (Function.update w.fs .staging n) := fun n =>
    (kept_update_self _ _ _).mono fun k hk => .inl hk
  unfold extractRootfs
  refine wp_context ?_
  rw [wp_bind]
  refine wp_perform_torn ?_ ?_ ?_ ?_ ?_
  · intro success fs hop
    simp only [hk] at hop
    cases hop
    split
    · rfl
    · exact hkept _
  · exact fun _ _ => .refl _ _
  · intro residue _
    cases residue with
    | none => exact .refl _ _
    | some n => exact hkept _
  · exact fun _ => .refl _ _
  · rintro p es ⟨⟩ -
    exact hkept _

/-- The rootfs a payload becomes when it is staged without a failure. -/
def newRootfs (env : Env) (fs : Fs Slot) (tree : Entries) (name : String) : Option Node :=
  if name = Mount.root.name then some (mountEntry env fs .root (tree.find name))
  else if name = Mount.home.name then some (mountEntry env fs .home (tree.find name))
  else tree.find name

theorem newRootfs_congr {fs fs' : Fs Slot} (h : ∀ m, fs (.persist m) = fs' (.persist m))
    (tree : Entries) (name : String) :
    newRootfs env fs tree name = newRootfs env fs' tree name := by
  unfold newRootfs
  rw [mountEntry_congr (h .root), mountEntry_congr (h .home)]

/-- What the two mounts leave at a place: each one its own entry, and nothing else. -/
theorem preparePersistentLayout_spec {k : Slot} {es : Entries} (hk : w.fs k = some (.dir es))
    (hne : ∀ m, k ≠ .persist m) :
    wp (preparePersistentLayout env step k)
      (fun _ w' => ∃ es' : Entries, w'.fs k = some (.dir es') ∧
        (∀ name, (∀ m : Mount, name ≠ m.name) → es'.find name = es.find name) ∧
        (env.cfg.testMode = true → Links env es') ∧ Kept (Beside k) w.fs w'.fs ∧
        (w'.failed = w.failed → SourcesReady w'.fs ∧
          ∀ name, es'.find name = newRootfs env w.fs es name))
      (Ends (fun w' => Kept (Beside k) w.fs w'.fs) fun _ w' => Kept (Beside k) w.fs w'.fs) w := by
  have hmount : ∀ m, Within env (· = step) (prepareMount env step k m) := fun m =>
    within_prepareMount (S := (· = step)) rfl _ _
  unfold preparePersistentLayout
  rw [wp_bind]
  refine wp_mono ((hmount .root).with (prepareMount_spec hk (hne .root))) ?_
    fun _ _ h => h.imp (fun h => h.1.beside) fun _ h => h.1.beside
  rintro - w₁ ⟨⟨es₁, hk₁, hother₁, hlink₁, hkept₁, hclean₁⟩, hadded₁⟩
  refine wp_mono ((hmount .home).with (prepareMount_spec hk₁ (hne .home))) ?_
    fun _ _ h => h.imp (fun h => hkept₁.beside.trans h.1.beside)
      fun _ h => hkept₁.beside.trans h.1.beside
  rintro - w₂ ⟨⟨es₂, hk₂, hother₂, hlink₂, hkept₂, hclean₂⟩, hadded₂⟩
  have hroot₂ := hother₂ _ Mount.name_ne
  have hhome₁ := hother₁ _ (Ne.symm Mount.name_ne)
  refine ⟨es₂, hk₂, fun name hname => ?_, fun htest m => ?_, hkept₁.beside.trans hkept₂.beside,
    fun heq => ?_⟩
  · rw [hother₂ name (hname .home), hother₁ name (hname .root)]
  · cases m with
    | root => rw [hroot₂, hlink₁ htest]
    | home => exact hlink₂ htest
  · obtain ⟨heq₁, heq₂⟩ := hadded₁.clean hadded₂ heq
    obtain ⟨hdir₁, hentry₁⟩ := hclean₁ heq₁
    obtain ⟨hdir₂, hentry₂⟩ := hclean₂ heq₂
    -- neither mount touches the persistent directory of the other one
    have hsource₁ : w₁.fs (.persist .home) = w.fs (.persist .home) :=
      hkept₁ _ (by simp [Around, Ne.symm (hne .home)])
    have hsource₂ : w₂.fs (.persist .root) = w₁.fs (.persist .root) :=
      hkept₂ _ (by simp [Around, Ne.symm (hne .root)])
    refine ⟨fun m => ?_, fun name => ?_⟩
    · cases m with
      | root =>
          rw [hsource₂]
          exact hdir₁
      | home => exact hdir₂
    · unfold newRootfs
      split
      · next hname => rw [hname, hroot₂, hentry₁]
      · next hname =>
          split
          · next hname' => rw [hname', hentry₂, hhome₁, mountEntry_congr hsource₁]
          · next hname' => rw [hother₂ name hname', hother₁ name hname]

/-- Staging leaves the active rootfs alone. What it stages is the extracted archive off the
    mount points, and exactly `newRootfs` if nothing failed. -/
theorem stageRootfs_spec (data : Bytes) :
    wp (stageRootfs env data)
      (fun _ w' => ∃ es : Entries, w'.fs .staging = some (.dir es) ∧
        (∀ name, (∀ m : Mount, name ≠ m.name) → es.find name = (env.unpack data []).1.find name) ∧
        (env.cfg.testMode = true → Links env es) ∧ Kept (Beside .staging) w.fs w'.fs ∧
        (w'.failed = w.failed → SourcesReady w'.fs ∧
          ∀ name, es.find name = newRootfs env w.fs (env.unpack data []).1 name))
      (Ends (fun w' => Kept (Beside .staging) w.fs w'.fs)
        fun _ w' => Kept (Beside .staging) w.fs w'.fs) w := by
  unfold stageRootfs
  rw [wp_bind]
  refine wp_mono ((within_resetDir (S := (· = .stage)) rfl _).with resetDir_spec) ?_
    fun _ _ h => h.imp (fun h => h.1) fun _ h => h.1
  rintro - w₁ ⟨hfs₁, hadded₁⟩
  have hkept₁ : Kept (Beside .staging) w.fs w₁.fs :=
    hfs₁ ▸ (kept_update_self _ _ _).mono fun k hk => .inl hk
  rw [wp_bind]
  refine wp_mono ((within_extractRootfs (S := (· = .stage)) rfl _).with
    (extractRootfs_spec (by rw [hfs₁, Function.update_self]))) ?_
    fun _ _ h => h.imp (fun h => hkept₁.trans h.1) fun _ h => hkept₁.trans h.1
  rintro - w₂ ⟨hfs₂, hadded₂⟩
  rw [hfs₁, Function.update_idem] at hfs₂
  have hkept₂ : Kept (Beside .staging) w.fs w₂.fs :=
    hfs₂ ▸ (kept_update_self _ _ _).mono fun k hk => .inl hk
  have hpersist : ∀ m, w₂.fs (.persist m) = w.fs (.persist m) := fun m => by
    rw [hfs₂, Function.update_of_ne (by simp)]
  refine wp_mono ((within_preparePersistentLayout (S := (· = .stage)) rfl _).with
    (preparePersistentLayout_spec (by rw [hfs₂, Function.update_self]) (by simp))) ?_
    fun _ _ h => h.imp (fun h => hkept₂.trans h.1) fun _ h => hkept₂.trans h.1
  rintro - w₃ ⟨⟨es, hstaging, hother, hlinks, hkept₃, hclean⟩, hadded₃⟩
  refine ⟨es, hstaging, hother, hlinks, hkept₂.trans hkept₃, fun heq => ?_⟩
  obtain ⟨hready, hentries⟩ := hclean ((hadded₁.trans hadded₂).clean hadded₃ heq).2
  refine ⟨hready, fun name => ?_⟩
  rw [hentries name, newRootfs_congr hpersist]

/-! ## The runtime -/

theorem removeFile_in {fs : Fs Slot} {k : Slot} {es : Entries} (hk : fs k = some (.dir es))
    {name : String} {r : Bool × Fs Slot} (h : Fs.removeFile (.in k name) fs = .ok r) :
    r.2 = fs ∨ r.2 = Function.update fs k (some (.dir (es.erase name))) := by
  unfold Fs.removeFile at h
  rw [Fs.put_in_none hk] at h
  split at h
  · cases h
    exact .inl rfl
  · cases h
  · cases h
    exact .inr rfl

theorem clearFallbackMarker_spec {es : Entries} (hroot : w.fs .root = some (.dir es)) :
    wp (clearFallbackMarker env step)
      (fun _ w' => Active es w'.fs ∧ Kept (· = .root) w.fs w'.fs ∧ w'.failed = w.failed)
      (Ends (fun w' => w'.fs = w.fs ∧ w'.failed = step :: w.failed) fun _ w' => w'.fs = w.fs)
      w := by
  unfold clearFallbackMarker removeFile
  rw [wp_bind]
  refine wp_context (wp_perform ?_ ?_ ?_ ?_)
  · intro removed fs hop
    rcases removeFile_in hroot hop with rfl | rfl
    · exact ⟨active_of_root hroot, .refl _ _, rfl⟩
    · refine ⟨⟨es.erase fallbackMarker, by simp [World.next], fun name hn => ?_⟩,
        kept_update_self _ _ _, rfl⟩
      rw [Entries.find_erase, if_neg hn]
  · exact fun _ _ => ⟨rfl, rfl⟩
  · exact fun _ _ => ⟨rfl, rfl⟩
  · exact fun _ => rfl

/-- Launching changes nothing but the fallback marker; it fails only with an operation. -/
theorem launch_spec {es : Entries} (hroot : w.fs .root = some (.dir es)) :
    wp (launch env step)
      (fun _ w' => Active es w'.fs ∧ Kept (· = .root) w.fs w'.fs)
      (Ends (fun w' => Active es w'.fs ∧ Kept (· = .root) w.fs w'.fs ∧ w'.failed ≠ w.failed)
        fun _ w' => Active es w'.fs ∧ Kept (· = .root) w.fs w'.fs) w := by
  unfold launch
  rw [wp_bind]
  refine wp_mono (clearFallbackMarker_spec hroot) ?_ fun _ w' h => h.imp ?_ ?_
  · rintro - w₁ ⟨hes, hkept, hfailed⟩
    rw [wp_bind]
    refine wp_context (wp_perform ?_ ?_ ?_ ?_)
    · rintro _ fs ⟨⟩
      exact ⟨hes, hkept⟩
    · rintro e ⟨⟩
    · intro _ _
      refine ⟨hes, hkept, ?_⟩
      rw [← hfailed]
      exact (Added.refl (fun _ => True) w₁).fail_ne _ _
    · exact fun _ => ⟨hes, hkept⟩
  · rintro ⟨hfs, hfailed⟩
    refine ⟨active_of_root (hfs ▸ hroot), .of_eq hfs, ?_⟩
    rw [hfailed]
    simp
  · exact fun _ hfs => ⟨active_of_root (hfs ▸ hroot), .of_eq hfs⟩

/-- How starting the runtime fails. Without a failed operation the rootfs is as it was and a
    persistent directory is missing. -/
def NotStarted (env : Env) (es : Entries) (w w' : World) : Prop :=
  ActiveOffLinks env es w'.fs ∧ Kept (Beside .root) w.fs w'.fs ∧
    (w'.failed = w.failed → Active es w'.fs ∧ ¬ SourcesReady w.fs)

theorem materialize_spec {es : Entries} (htest : env.cfg.testMode = true)
    (hroot : w.fs .root = some (.dir es)) (hlinks : Links env es) :
    wp (materializeTestModePersistentLinks env step .root)
      (fun _ w' => Active es w'.fs ∧ Kept (Beside .root) w.fs w'.fs)
      (Ends (fun w' => NotStarted env es w w') fun _ w' =>
        ActiveOffLinks env es w'.fs ∧ Kept (Beside .root) w.fs w'.fs) w := by
  unfold materializeTestModePersistentLinks
  rw [wp_bind]
  refine wp_mono ((within_linkMount (S := (· = step)) rfl _ _).with
    (linkMount_spec hroot (by simp) (hlinks .root))) ?_ fun _ _ h => h.imp ?_ ?_
  · rintro - w₁ ⟨⟨⟨es₁, hroot₁, hsame₁⟩, hkept₁⟩, hadded₁⟩
    have hhome : w₁.fs (.persist .home) = w.fs (.persist .home) :=
      hkept₁ _ (by simp [Around])
    refine wp_mono ((within_linkMount (S := (· = step)) rfl _ _).with
      (linkMount_spec hroot₁ (by simp) ((hsame₁ _).trans (hlinks .home)))) ?_
      fun _ _ h => h.imp ?_ ?_
    · rintro - w₂ ⟨⟨⟨es₂, hroot₂, hsame₂⟩, hkept₂⟩, -⟩
      exact ⟨⟨es₂, hroot₂, fun name _ => (hsame₂ name).trans (hsame₁ name)⟩,
        hkept₁.beside.trans hkept₂.beside⟩
    · rintro ⟨⟨⟨es₂, hroot₂, hother₂, hclean₂⟩, hkept₂, hdir₂⟩, hadded₂⟩
      refine ⟨⟨es₂, hroot₂, fun name _ hm => ?_⟩, hkept₁.beside.trans hkept₂.beside,
        fun heq => ⟨⟨es₂, hroot₂, fun name _ => ?_⟩, fun hready => ?_⟩⟩
      · rw [hother₂ name (hm htest .home), hsame₁ name]
      · rw [hclean₂ (hadded₁.clean hadded₂ heq).2 name, hsame₁ name]
      · obtain ⟨d, hd⟩ := hready .home
        exact hdir₂ (hadded₁.clean hadded₂ heq).2 d (hhome.trans hd)
    · rintro _ ⟨⟨⟨es₂, hroot₂, hother₂⟩, hkept₂⟩, -⟩
      refine ⟨⟨es₂, hroot₂, fun name _ hm => ?_⟩, hkept₁.beside.trans hkept₂.beside⟩
      rw [hother₂ name (hm htest .home), hsame₁ name]
  · rintro ⟨⟨⟨es₁, hroot₁, hother₁, hclean₁⟩, hkept₁, hdir₁⟩, -⟩
    refine ⟨⟨es₁, hroot₁, fun name _ hm => hother₁ name (hm htest .root)⟩, hkept₁.beside,
      fun heq => ⟨⟨es₁, hroot₁, fun name _ => hclean₁ heq name⟩, fun hready => ?_⟩⟩
    obtain ⟨d, hd⟩ := hready .root
    exact hdir₁ heq d hd
  · rintro _ ⟨⟨⟨es₁, hroot₁, hother₁⟩, hkept₁⟩, -⟩
    exact ⟨⟨es₁, hroot₁, fun name _ hm => hother₁ name (hm htest .root)⟩, hkept₁.beside⟩

theorem wp_getRuntime {Q : Option Nat → World → Prop} {E : Stop → World → Prop} :
    wp getRuntime Q E w ↔ Q w.runtime w := Iff.rfl

/-- Starting the runtime changes the rootfs only at the fallback marker, unless renewing a link
    fails half-way. It fails without a failed operation only in test mode, and only if a
    persistent directory is not there. -/
theorem ensureRuntimeStarted_spec {es : Entries} (hroot : w.fs .root = some (.dir es))
    (hlinks : env.cfg.testMode = true → Links env es) :
    wp (ensureRuntimeStarted env step)
      (fun _ w' => Active es w'.fs ∧ Kept (Beside .root) w.fs w'.fs)
      (Ends (fun w' => NotStarted env es w w') fun _ w' =>
        ActiveOffLinks env es w'.fs ∧ Kept (Beside .root) w.fs w'.fs) w := by
  have hsub : ∀ k, k = Slot.root → Beside .root k := fun k hk => .inl hk
  have hlaunch : ∀ {w' : World}, w'.fs = w.fs → w'.failed = w.failed →
      wp (launch env step)
        (fun _ w' => Active es w'.fs ∧ Kept (Beside .root) w.fs w'.fs)
        (Ends (fun w' => NotStarted env es w w') fun _ w' =>
          ActiveOffLinks env es w'.fs ∧
            Kept (Beside .root) w.fs w'.fs) w' := by
    intro w' hfs hfailed
    have hspec := @launch_spec env step w' es (hfs ▸ hroot)
    rw [hfs, hfailed] at hspec
    refine wp_mono hspec (fun _ _ h => ⟨h.1, h.2.mono hsub⟩) fun _ _ h => h.imp ?_ ?_
    · rintro ⟨hactive, hkept, hgrew⟩
      exact ⟨Active.offLinks hactive, hkept.mono hsub, fun heq => absurd heq hgrew⟩
    · rintro _ ⟨hactive, hkept⟩
      exact ⟨Active.offLinks hactive, hkept.mono hsub⟩
  unfold ensureRuntimeStarted
  split
  · next htest =>
      rw [wp_bind]
      exact wp_mono (materialize_spec htest hroot (hlinks htest)) (fun _ _ h => h) fun _ _ h => h
  · rw [wp_bind, wp_getRuntime]
    split
    · exact hlaunch rfl rfl
    · rw [wp_bind]
      refine wp_context (wp_perform ?_ ?_ ?_ ?_)
      · rintro poll fs ⟨⟩
        split
        · exact ⟨active_of_root hroot, .refl _ _⟩
        · rw [wp_bind]
          exact hlaunch rfl rfl
      · rintro e ⟨⟩
      · intro _ _
        have hgrew := (Added.refl (fun _ => True) w).fail_ne step w.fs
        exact ⟨(active_of_root hroot).offLinks, .refl _ _, fun heq => absurd heq hgrew⟩
      · exact fun _ => ⟨(active_of_root hroot).offLinks, .refl _ _⟩

theorem stopRuntime_spec {es : Entries} (hroot : w.fs .root = some (.dir es)) :
    wp (stopRuntime env step)
      (fun _ w' => Active es w'.fs ∧ Kept (· = .root) w.fs w'.fs ∧ w'.failed = w.failed)
      (Ends (fun w' => w'.fs = w.fs ∧ w'.failed = step :: w.failed) fun _ w' => w'.fs = w.fs)
      w := by
  have hstay : Active es w.fs ∧ Kept (· = .root) w.fs w.fs ∧ w.failed = w.failed :=
    ⟨active_of_root hroot, .refl _ _, rfl⟩
  unfold stopRuntime
  rw [wp_bind, wp_getRuntime]
  split
  · exact hstay
  · rw [wp_bind]
    show wp _ _ _ { w with runtime := none }
    split
    · exact hstay
    · exact clearFallbackMarker_spec (w := { w with runtime := none }) hroot

end FlyVault.Init.Setup
