/-
  The persistent layout of a rootfs: what preparing it does to a staged rootfs, and what
  renewing the links does to an active one.

  * `prepareMount_spec`: preparing a staged rootfs changes only its mount points and the
    persistent directories, and says what the mount point is if nothing failed (`mountEntry`);
  * `linkMount_spec`: renewing a link that is there changes nothing, unless it fails half-way.
-/
import FlyVault.Init.SetupSpecs

namespace FlyVault.Init.Setup

open FlyVault.Lib FlyVault.Protocol
open Prog (wp wp_bind wp_pure wp_throw wp_mono)

variable {env : Env} {step : Step} {w : World}

/-- A rootfs place and one of the persistent directories. -/
def Around (k : Slot) (m : Mount) (j : Slot) : Prop := j = k ∨ j = .persist m

theorem dir_pathExists {fs : Fs Slot} {p : Path Slot} {d : Entries}
    (h : fs.get p = some (.dir d)) (links : String → Option Kind) :
    fs.pathExists links p = true := by
  simp [Fs.pathExists, h]

/-- `es'` is the rootfs at `k` after the persistent directory of `m` was looked for at `name`. -/
structure Adopted (env : Env) (k : Slot) (m : Mount) (name : String) (es : Entries) (w : World)
    (es' : Entries) (w' : World) : Prop where
  place : w'.fs k = some (.dir es')
  others : ∀ other, other ≠ name → es'.find other = es.find other
  same : (∀ d, es.find name ≠ some (.dir d)) → es' = es
  kept : Kept (Around k m) w.fs w'.fs
  moved : w'.failed = w.failed →
    w.fs.pathExists env.links (.at (.persist m)) = true ∧ es' = es ∨
      w.fs.pathExists env.links (.at (.persist m)) = false ∧ es'.find name = none
  source : (∃ d, w.fs (.persist m) = some (.dir d)) → ∃ d, w'.fs (.persist m) = some (.dir d)

theorem adoptSource_adopted {k : Slot} {es : Entries} {m : Mount} {name : String}
    (hk : w.fs k = some (.dir es)) (hne : k ≠ .persist m) :
    wp (adoptSource env step m (.in k name)) (fun _ w' => ∃ es', Adopted env k m name es w es' w')
      (Ends (fun w' => w'.fs = w.fs ∧ (w'.failed = w.failed →
        w.fs.pathExists env.links (.at (.persist m)) = false)) fun _ w' => w'.fs = w.fs) w := by
  refine wp_mono (adoptSource_spec hk) ?_ fun _ _ h => h
  rintro - w' (⟨hfs, hclean⟩ | ⟨d, hd, hfs, hclean⟩)
  · refine ⟨es, hfs ▸ hk, fun _ _ => rfl, fun _ => rfl, .of_eq hfs, fun heq => ?_, ?_⟩
    · cases hex : w.fs.pathExists env.links (.at (.persist m)) with
      | true => exact .inl ⟨rfl, rfl⟩
      | false =>
          rcases hclean heq with h | h
          · rw [hex] at h
            cases h
          · exact .inr ⟨rfl, h⟩
    · rw [hfs]
      exact id
  · refine ⟨es.erase name, ?_, ?_, fun h => absurd hd (h d), ?_, fun heq => ?_, ?_⟩
    · rw [hfs, Function.update_of_ne hne, Function.update_self]
    · intro other ho
      rw [Entries.find_erase, if_neg ho]
    · rw [hfs]
      exact (kept_update (T := Around k m) (.inl rfl) _ _).trans
        (kept_update (T := Around k m) (.inr rfl) _ _)
    · refine .inr ⟨hclean heq, ?_⟩
      rw [Entries.find_erase, if_pos rfl]
    · rw [hfs, Function.update_self]
      exact fun _ => ⟨d, rfl⟩

theorem ensurePersistentSourceDir_spec {k : Slot} {es : Entries} {m : Mount} {name : String}
    (hk : w.fs k = some (.dir es)) (hne : k ≠ .persist m) :
    wp (ensurePersistentSourceDir env step m (.in k name))
      (fun _ w' => ∃ es' : Entries, w'.fs k = some (.dir es') ∧
        (∀ other, other ≠ name → es'.find other = es.find other) ∧
        ((∀ d, es.find name ≠ some (.dir d)) → es' = es) ∧ Kept (Around k m) w.fs w'.fs ∧
        (w'.failed = w.failed → (∃ d, w'.fs (.persist m) = some (.dir d)) ∧
          (w.fs.pathExists env.links (.at (.persist m)) = true ∧ es' = es ∨
            w.fs.pathExists env.links (.at (.persist m)) = false ∧ es'.find name = none)))
      (Ends (fun w' => Kept (Around k m) w.fs w'.fs ∧
          ((∀ d, es.find name ≠ some (.dir d)) → w'.fs k = w.fs k) ∧
          (w'.failed = w.failed → ∀ d, w.fs (.persist m) ≠ some (.dir d)))
        fun _ w' => Kept (Around k m) w.fs w'.fs ∧
          ((∀ d, es.find name ≠ some (.dir d)) → w'.fs k = w.fs k)) w := by
  unfold ensurePersistentSourceDir
  rw [wp_bind]
  refine wp_mono ((within_adoptSource (S := (· = step)) rfl _ _).with
    (adoptSource_adopted hk hne)) ?_ fun _ _ h => h.imp ?_ ?_
  · rintro - w₁ ⟨⟨es', hadopted⟩, hadded⟩
    have hstays : (∀ d, es.find name ≠ some (.dir d)) → w₁.fs k = w.fs k := fun h => by
      rw [hadopted.place, hk, hadopted.same h]
    refine wp_mono ((within_ensureDirectory (S := (· = step)) rfl _).with
      (ensureDirectory_spec (.at (.persist m)))) ?_ fun _ _ h => h.imp ?_ ?_
    · rintro - w₂ ⟨hens, hadded₂⟩
      have hk₂ : w₂.fs k = some (.dir es') ∧ Kept (Around k m) w₁.fs w₂.fs := by
        rcases hens with ⟨hfs, -⟩ | ⟨-, hfs⟩
        · exact ⟨hfs ▸ hadopted.place, .of_eq hfs⟩
        · rw [hfs, Fs.put_at]
          exact ⟨by rw [Function.update_of_ne hne, hadopted.place],
            kept_update (T := Around k m) (.inr rfl) _ _⟩
      refine ⟨es', hk₂.1, hadopted.others, hadopted.same, hadopted.kept.trans hk₂.2,
        fun heq => ?_⟩
      obtain ⟨heq₁, heq₂⟩ := hadded.clean hadded₂ heq
      refine ⟨?_, hadopted.moved heq₁⟩
      rcases hens with ⟨hfs, -, hd⟩ | ⟨-, hfs⟩
      · rw [hfs]
        exact hd heq₂
      · rw [hfs, Fs.put_at, Function.update_self]
        exact ⟨_, rfl⟩
    · rintro ⟨⟨hfs, hd⟩, hadded₂⟩
      rw [hfs]
      refine ⟨hadopted.kept, hstays, fun heq d hdir' => ?_⟩
      obtain ⟨n, hn, hnd⟩ := hd (hadded.clean hadded₂ heq).2
      obtain ⟨d', hd'⟩ := hadopted.source ⟨d, hdir'⟩
      rw [Fs.get_at, hd'] at hn
      exact hnd d' (Option.some.inj hn).symm
    · rintro _ ⟨hfs, -⟩
      rw [hfs]
      exact ⟨hadopted.kept, hstays⟩
  · rintro ⟨⟨hfs, hmissing⟩, -⟩
    refine ⟨.of_eq hfs, fun _ => by rw [hfs], fun heq d hd => ?_⟩
    rw [dir_pathExists (p := .at (.persist m)) hd] at hmissing
    exact absurd (hmissing heq) (by simp)
  · rintro _ ⟨hfs, -⟩
    exact ⟨.of_eq hfs, fun _ => by rw [hfs]⟩

/-- The mount point of a rootfs that was staged without a failure: the link in test mode, else a
    directory, which is the one of the archive if the persistent directory was there. -/
def mountEntry (env : Env) (fs : Fs Slot) (m : Mount) (entry : Option Node) : Node :=
  if env.cfg.testMode then .symlink (env.cfg.path (.persist m))
  else if fs.pathExists env.links (.at (.persist m)) then entry.getD (.dir [])
  else .dir []

theorem mountEntry_congr {fs fs' : Fs Slot} {m : Mount} (h : fs (.persist m) = fs' (.persist m))
    (entry : Option Node) : mountEntry env fs m entry = mountEntry env fs' m entry := by
  unfold mountEntry Fs.pathExists
  rw [Fs.get_at, Fs.get_at, h]

/-- `ensure_directory` at an entry of a rootfs: what was there stays, else there is an empty
    directory. -/
theorem ensureDirectory_in_spec {k : Slot} {es : Entries} {name : String}
    (hk : w.fs k = some (.dir es)) :
    wp (ensureDirectory env step (.in k name))
      (fun _ w' => ∃ es' : Entries, w'.fs = Function.update w.fs k (some (.dir es')) ∧
        (∀ other, other ≠ name → es'.find other = es.find other) ∧
        (w'.failed = w.failed → es'.find name = some ((es.find name).getD (.dir []))))
      (Ends (fun w' => w'.fs = w.fs) fun _ w' => w'.fs = w.fs) w := by
  refine wp_mono (ensureDirectory_spec _) ?_ fun _ _ h => h.imp (fun h => h.1) fun _ h => h
  intro _ w' hens
  rw [Fs.get_in hk] at hens
  rcases hens with ⟨hfs, -, hd⟩ | ⟨hnone, hfs⟩
  · refine ⟨es, ?_, fun _ _ => rfl, fun heq => ?_⟩
    · rw [hfs, ← hk, Function.update_eq_self]
    · obtain ⟨d, hd⟩ := hd heq
      rw [hd]
      rfl
  · rw [Fs.put_in_some hk] at hfs
    refine ⟨_, hfs, fun other ho => ?_, fun _ => ?_⟩
    · rw [Entries.find_insert, if_neg ho]
    · rw [Entries.find_insert, if_pos rfl, hnone]
      rfl

/-- The mount point itself: both ways to make it change one entry of the rootfs. -/
theorem makeMount_spec {k : Slot} {es : Entries} {m : Mount} (hk : w.fs k = some (.dir es)) :
    wp (if env.cfg.testMode then replaceWithSymlink env step m (.in k m.name)
        else ensureDirectory env step (.in k m.name))
      (fun _ w' => ∃ es' : Entries, w'.fs = Function.update w.fs k (some (.dir es')) ∧
        (∀ other, other ≠ m.name → es'.find other = es.find other) ∧
        (env.cfg.testMode = true →
          es'.find m.name = some (.symlink (env.cfg.path (.persist m)))) ∧
        (w'.failed = w.failed → env.cfg.testMode = false →
          es'.find m.name = some ((es.find m.name).getD (.dir []))))
      (Ends (fun w' => Kept (· = k) w.fs w'.fs) fun _ w' => Kept (· = k) w.fs w'.fs) w := by
  have honly : ∀ {fs : Fs Slot}, OnlyAt m.name k es w.fs fs → Kept (· = k) w.fs fs := by
    intro fs h
    obtain ⟨es', hfs, -⟩ := h
    rw [hfs]
    exact kept_update_self _ _ _
  split
  · next htest =>
      refine wp_mono (replaceWithSymlink_spec hk) ?_
        fun _ _ h => h.imp (fun h => honly h.1) fun _ h => honly h
      intro _ w' h
      obtain ⟨es', hfs, hlink, hother⟩ := h
      exact ⟨es', hfs, hother, fun _ => hlink,
        fun _ hfalse => absurd (htest.symm.trans hfalse) (by simp)⟩
  · next htest =>
      refine wp_mono (ensureDirectory_in_spec hk) ?_
        fun _ _ h => h.imp (fun h => .of_eq h) fun _ h => .of_eq h
      intro _ w' h
      obtain ⟨es', hfs, hother, hclean⟩ := h
      exact ⟨es', hfs, hother, fun h => absurd h htest, fun heq _ => hclean heq⟩

/-- Preparing a rootfs at a mount point changes the mount point and the persistent directory. -/
theorem prepareMount_spec {k : Slot} {es : Entries} {m : Mount}
    (hk : w.fs k = some (.dir es)) (hne : k ≠ .persist m) :
    wp (prepareMount env step k m)
      (fun _ w' => ∃ es' : Entries, w'.fs k = some (.dir es') ∧
        (∀ other, other ≠ m.name → es'.find other = es.find other) ∧
        (env.cfg.testMode = true →
          es'.find m.name = some (.symlink (env.cfg.path (.persist m)))) ∧
        Kept (Around k m) w.fs w'.fs ∧
        (w'.failed = w.failed → (∃ d, w'.fs (.persist m) = some (.dir d)) ∧
          es'.find m.name = some (mountEntry env w.fs m (es.find m.name))))
      (Ends (fun w' => Kept (Around k m) w.fs w'.fs)
        fun _ w' => Kept (Around k m) w.fs w'.fs) w := by
  have haround : ∀ {fs fs' : Fs Slot}, Kept (· = k) fs fs' → Kept (Around k m) fs fs' :=
    fun h => h.mono fun _ hj => .inl hj
  unfold prepareMount
  rw [wp_bind]
  refine wp_mono ((within_ensurePersistentSourceDir (S := (· = step)) rfl _ _).with
    (ensurePersistentSourceDir_spec hk hne)) ?_
    fun _ _ h => h.imp (fun h => h.1.1) fun _ h => h.1.1
  rintro - w₁ ⟨⟨es₁, hk₁, hother₁, -, hkept₁, hclean₁⟩, hadded₁⟩
  refine wp_mono ((within_ite (within_replaceWithSymlink (S := (· = step)) rfl _ _)
    (within_ensureDirectory (S := (· = step)) rfl _)).with (makeMount_spec hk₁)) ?_
    fun _ _ h => h.imp (fun h => hkept₁.trans (haround h.1)) fun _ h => hkept₁.trans (haround h.1)
  rintro - w₂ ⟨⟨es₂, hfs₂, hother₂, hlink₂, hclean₂⟩, hadded₂⟩
  have hkept₂ : Kept (· = k) w₁.fs w₂.fs := hfs₂ ▸ kept_update_self _ _ _
  refine ⟨es₂, by rw [hfs₂, Function.update_self], fun other ho => ?_, hlink₂,
    hkept₁.trans (haround hkept₂), fun heq => ?_⟩
  · rw [hother₂ other ho, hother₁ other ho]
  · obtain ⟨heq₁, heq₂⟩ := hadded₁.clean hadded₂ heq
    obtain ⟨hsource, hfound⟩ := hclean₁ heq₁
    rw [hkept₂ _ (Ne.symm hne)]
    refine ⟨hsource, ?_⟩
    unfold mountEntry
    split
    · next htest => exact hlink₂ htest
    · next htest =>
        rw [hclean₂ heq₂ (Bool.eq_false_iff.mpr htest)]
        rcases hfound with ⟨hex, rfl⟩ | ⟨hex, hnone⟩
        · rw [if_pos hex]
        · rw [hex, hnone]
          rfl

/-- Renewing a link that is there leaves the rootfs as it was. A failure may lose the link; one
    that is not the answer of an operation needs a persistent directory that is none. -/
theorem linkMount_spec {k : Slot} {es : Entries} {m : Mount} (hk : w.fs k = some (.dir es))
    (hne : k ≠ .persist m)
    (hlink : es.find m.name = some (.symlink (env.cfg.path (.persist m)))) :
    wp (linkMount env step k m)
      (fun _ w' => (∃ es' : Entries, w'.fs k = some (.dir es') ∧
        ∀ name, es'.find name = es.find name) ∧ Kept (Around k m) w.fs w'.fs)
      (Ends (fun w' => (∃ es' : Entries, w'.fs k = some (.dir es') ∧
          (∀ other, other ≠ m.name → es'.find other = es.find other) ∧
          (w'.failed = w.failed → ∀ name, es'.find name = es.find name)) ∧
          Kept (Around k m) w.fs w'.fs ∧
          (w'.failed = w.failed → ∀ d, w.fs (.persist m) ≠ some (.dir d)))
        fun _ w' => (∃ es' : Entries, w'.fs k = some (.dir es') ∧
          ∀ other, other ≠ m.name → es'.find other = es.find other) ∧
          Kept (Around k m) w.fs w'.fs) w := by
  have hnd : ∀ d, es.find m.name ≠ some (.dir d) := by
    rw [hlink]
    simp
  unfold linkMount
  rw [wp_bind]
  refine wp_mono ((within_ensurePersistentSourceDir (S := (· = step)) rfl _ _).with
    (ensurePersistentSourceDir_spec hk hne)) ?_ fun _ _ h => h.imp ?_ ?_
  · rintro - w₁ ⟨⟨es₁, hk₁, -, hsame, hkept₁, -⟩, hadded₁⟩
    obtain rfl := hsame hnd
    refine wp_mono ((within_replaceWithSymlink (S := (· = step)) rfl _ _).with
      (replaceWithSymlink_spec hk₁)) ?_ fun _ _ h => h.imp ?_ ?_
    · rintro - w₂ ⟨⟨es₂, hfs₂, hlink₂, hother₂⟩, -⟩
      refine ⟨⟨es₂, by rw [hfs₂, Function.update_self], fun name => ?_⟩,
        hkept₁.trans (hfs₂ ▸ kept_update (T := Around k m) (.inl rfl) _ _)⟩
      by_cases hname : name = m.name
      · rw [hname, hlink₂, hlink]
      · exact hother₂ name hname
    · rintro ⟨⟨⟨es₂, hfs₂, hother₂⟩, hspecial⟩, hadded₂⟩
      have hno : ∀ {P : Prop}, _ → P := fun heq => by
        rw [(hspecial (hadded₁.clean hadded₂ heq).2).2] at hlink
        cases hlink
      exact ⟨⟨es₂, by rw [hfs₂, Function.update_self], hother₂, hno⟩,
        hkept₁.trans (hfs₂ ▸ kept_update (T := Around k m) (.inl rfl) _ _), hno⟩
    · rintro _ ⟨⟨es₂, hfs₂, hother₂⟩, -⟩
      exact ⟨⟨es₂, by rw [hfs₂, Function.update_self], hother₂⟩,
        hkept₁.trans (hfs₂ ▸ kept_update (T := Around k m) (.inl rfl) _ _)⟩
  · rintro ⟨⟨hkept, hsame, hdir⟩, -⟩
    exact ⟨⟨es, (hsame hnd).trans hk, fun _ _ => rfl, fun _ _ => rfl⟩, hkept, hdir⟩
  · rintro _ ⟨⟨hkept, hsame⟩, -⟩
    exact ⟨⟨es, (hsame hnd).trans hk, fun _ _ => rfl⟩, hkept⟩

end FlyVault.Init.Setup
