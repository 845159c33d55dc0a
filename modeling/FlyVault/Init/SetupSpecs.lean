/-
  What the helpers of the setup manager leave in the data directory.

  Each spec has one part for a return, one for a failure and one for the death of the process.
  The ones about the persistent layout say which entries of the rootfs they may change (the
  mount points only), and what is at the mount points if nothing failed.
-/
import FlyVault.Init.SetupRules

namespace FlyVault.Init.Setup

open FlyVault.Lib FlyVault.Protocol
open Prog (wp wp_bind wp_pure wp_throw wp_mono)

variable {env : Env} {step : Step} {w : World}

/-- Nothing changed and nothing failed. -/
def Untouched (w w' : World) : Prop := w'.fs = w.fs ∧ w'.failed = w.failed

/-- Only the places in `T` differ. -/
def Kept (T : Slot → Prop) (fs fs' : Fs Slot) : Prop := ∀ k, ¬ T k → fs' k = fs k

theorem Kept.refl (T : Slot → Prop) (fs : Fs Slot) : Kept T fs fs := fun _ _ => rfl

theorem Kept.of_eq {T : Slot → Prop} {fs fs' : Fs Slot} (h : fs' = fs) : Kept T fs fs' :=
  h ▸ Kept.refl T fs

theorem Kept.trans {T : Slot → Prop} {fs₁ fs₂ fs₃ : Fs Slot} (h : Kept T fs₁ fs₂)
    (h' : Kept T fs₂ fs₃) : Kept T fs₁ fs₃ := fun k hk => (h' k hk).trans (h k hk)

theorem Kept.mono {T T' : Slot → Prop} {fs fs' : Fs Slot} (h : Kept T fs fs')
    (hT : ∀ k, T k → T' k) : Kept T' fs fs' := fun k hk => h k fun ht => hk (hT k ht)

theorem kept_update {T : Slot → Prop} {k : Slot} (hk : T k) (fs : Fs Slot) (n : Option Node) :
    Kept T fs (Function.update fs k n) := by
  intro j hj
  rw [Function.update_of_ne]
  rintro rfl
  exact hj hk

theorem kept_update_self (k : Slot) (fs : Fs Slot) (n : Option Node) :
    Kept (· = k) fs (Function.update fs k n) := kept_update (T := (· = k)) rfl fs n

/-! ## Queries -/

theorem pathExists_spec (p : Path Slot) :
    wp (pathExists env step p)
      (fun b w' => w'.fs = w.fs ∧ (b = w.fs.pathExists env.links p ∧ w'.failed = w.failed ∨
        b = false ∧ w'.failed = step :: w.failed ∧ Faulty env))
      (Ends (fun _ => False) fun _ w' => Untouched w w') w := by
  unfold pathExists
  rw [wp_bind]
  refine wp_attempt (wp_perform ?_ ?_ ?_ ?_)
  · rintro a fs ⟨⟩
    exact ⟨rfl, .inl ⟨rfl, rfl⟩⟩
  · rintro e ⟨⟩
  · exact fun _ hf _ => ⟨rfl, .inr ⟨rfl, rfl, hf⟩⟩
  · exact fun _ => ⟨rfl, rfl⟩

theorem symlinkMetadata_spec (p : Path Slot) :
    wp (symlinkMetadata env step p)
      (fun kind w' => kind = w.fs.lstat p ∧ Untouched w w')
      (Ends (fun w' => w'.fs = w.fs ∧ w'.failed = step :: w.failed ∧ Faulty env)
        fun d w' => d.left = none ∧ w'.fs = w.fs) w := by
  refine wp_perform ?_ ?_ ?_ ?_
  · rintro a fs ⟨⟩
    exact ⟨rfl, rfl, rfl⟩
  · rintro e ⟨⟩
  · exact fun _ hf => ⟨rfl, rfl, hf⟩
  · exact fun _ => ⟨rfl, rfl⟩

theorem peek_spec (p : Path Slot) :
    wp (peek env step p)
      (fun kind w' => w'.fs = w.fs ∧ (kind = w.fs.lstat p ∧ w'.failed = w.failed ∨
        kind = none ∧ w'.failed = step :: w.failed))
      (Ends (fun _ => False) fun _ w' => w'.fs = w.fs) w := by
  unfold peek
  rw [wp_bind]
  refine wp_attempt (wp_mono (symlinkMetadata_spec p) ?_ fun _ _ h => h.imp ?_ fun _ h => h.2)
  · rintro kind w' ⟨hkind, hfs, hfailed⟩
    exact ⟨hfs, .inl ⟨hkind, hfailed⟩⟩
  · exact fun h _ => ⟨h.1, .inr ⟨rfl, h.2.1⟩⟩

/-- The entry of a directory; an unnoticed failure looks like a missing one. -/
theorem peek_in_spec {k : Slot} {es : Entries} {name : String} (hk : w.fs k = some (.dir es)) :
    wp (peek env step (.in k name))
      (fun kind w' => w'.fs = w.fs ∧
        (kind = none ∧ (w'.failed = w.failed → es.find name = none) ∨
          ∃ n, es.find name = some n ∧ kind = some n.kind))
      (Ends (fun _ => False) fun _ w' => w'.fs = w.fs) w := by
  refine wp_mono (peek_spec _) ?_ fun _ _ h => h
  rintro kind w' ⟨hfs, ⟨rfl, -⟩ | ⟨rfl, hfailed⟩⟩
  · refine ⟨hfs, ?_⟩
    rw [Fs.lstat, Fs.get_in hk]
    cases es.find name with
    | none => exact .inl ⟨rfl, fun _ => rfl⟩
    | some n => exact .inr ⟨n, rfl, rfl⟩
  · refine ⟨hfs, .inl ⟨rfl, fun heq => ?_⟩⟩
    rw [heq] at hfailed
    simp at hfailed

/-! ## Removal -/

theorem unlink_spec {p : Path Slot} {n : Node} (h : w.fs.get p = some n)
    (hn : ∀ es, n ≠ .dir es) :
    wp (unlink env step p) (fun _ w' => w'.fs = w.fs.put p none ∧ w'.failed = w.failed)
      (Ends (fun w' => w'.fs = w.fs ∧ w'.failed = step :: w.failed ∧ Faulty env)
        fun d w' => d.left = none ∧ w'.fs = w.fs) w := by
  have hop : Fs.removeFile p w.fs = .ok (true, w.fs.put p none) := by
    unfold Fs.removeFile
    rw [h]
    cases n with
    | dir es => exact absurd rfl (hn es)
    | _ => rfl
  unfold unlink removeFile
  rw [wp_bind]
  refine wp_perform ?_ ?_ ?_ ?_
  · intro a fs ha
    rw [hop] at ha
    cases ha
    exact ⟨rfl, rfl⟩
  · intro e he
    rw [hop] at he
    cases he
  · exact fun _ hf => ⟨rfl, rfl, hf⟩
  · exact fun _ => ⟨rfl, rfl⟩

/-- The process died before an operation on `p`, or in the middle of it. -/
def Torn (p : Path Slot) (fs : Fs Slot) (d : Death) (fs' : Fs Slot) : Prop :=
  d.left = none ∧ fs' = fs ∨ ∃ es, d.left = some es ∧ fs' = fs.put p (some (.dir es))

theorem Torn.kept {k : Slot} {fs fs' : Fs Slot} {d : Death} (h : Torn (.at k) fs d fs') :
    Kept (· = k) fs fs' := by
  rcases h with ⟨-, h⟩ | ⟨es, -, h⟩
  · exact .of_eq h
  · rw [h]
    exact kept_update_self k _ _

theorem removeDirAll_spec {p : Path Slot} {es : Entries} (h : w.fs.get p = some (.dir es)) :
    wp (removeDirAll env step p) (fun _ w' => w'.fs = w.fs.put p none ∧ w'.failed = w.failed)
      (Ends (fun w' => (w'.fs = w.fs ∨ ∃ n, w'.fs = w.fs.put p (some n)) ∧
        w'.failed = step :: w.failed ∧ Faulty env) fun d w' => Torn p w.fs d w'.fs) w := by
  have hop : Fs.removeDirAll p w.fs = .ok ((), w.fs.put p none) := by
    unfold Fs.removeDirAll
    rw [h]
  refine wp_perform_torn ?_ ?_ ?_ ?_ ?_
  · intro a fs ha
    rw [hop] at ha
    cases ha
    exact ⟨rfl, rfl⟩
  · intro e he
    rw [hop] at he
    cases he
  · intro residue hf
    refine ⟨?_, rfl, hf⟩
    cases residue with
    | none => exact .inl rfl
    | some n => exact .inr ⟨n, rfl⟩
  · exact fun _ => .inl ⟨rfl, rfl⟩
  · rintro q es ⟨⟩ -
    exact .inr ⟨es, rfl, rfl⟩

/-- `remove_path_if_exists` leaves nothing at the place, or fails there. -/
theorem removePathIfExists_spec (k : Slot) :
    wp (removePathIfExists env step (.at k))
      (fun _ w' => w'.fs = Function.update w.fs k none ∧ w'.failed = w.failed)
      (Ends (fun w' => Kept (· = k) w.fs w'.fs ∧ w'.failed = step :: w.failed ∧
        (w.fs k ≠ some .special → Faulty env)) fun d w' => Torn (.at k) w.fs d w'.fs) w := by
  unfold removePathIfExists
  rw [wp_bind]
  refine wp_context (wp_mono (symlinkMetadata_spec _) ?_ fun _ _ h => h.imp ?_ fun _ h => .inl h)
  · rintro kind w₁ ⟨rfl, hfs, hfailed⟩
    rw [← hfs, ← hfailed]
    have hunlink : ∀ n, w₁.fs k = some n → (∀ es, n ≠ .dir es) →
        wp (unlink env step (.at k))
          (fun _ w' => w'.fs = Function.update w₁.fs k none ∧ w'.failed = w₁.failed)
          (Ends (fun w' => Kept (· = k) w₁.fs w'.fs ∧ w'.failed = step :: w₁.failed ∧
            (w₁.fs k ≠ some .special → Faulty env))
            fun d w' => Torn (.at k) w₁.fs d w'.fs) w₁ := fun n hn hne =>
      wp_mono (unlink_spec (p := .at k) hn hne) (fun _ _ h => h) fun _ _ h =>
        h.imp (fun h => ⟨.of_eq h.1, h.2.1, fun _ => h.2.2⟩) fun _ h => .inl h
    unfold Fs.lstat
    rw [Fs.get_at]
    cases hk : w₁.fs k with
    | none => exact ⟨(Function.update_eq_self_iff.mpr hk.symm).symm, rfl⟩
    | some n =>
        cases n with
        | file content => exact wp_context (hk ▸ hunlink _ hk (by simp))
        | symlink target => exact wp_context (hk ▸ hunlink _ hk (by simp))
        | special =>
            have hop : Fs.removeDirAll (.at k) w₁.fs = .error "not a directory" := by
              simp [Fs.removeDirAll, hk]
            refine wp_context (wp_perform_torn ?_ ?_ ?_ ?_ ?_)
            · intro a fs ha
              rw [hop] at ha
              cases ha
            · exact fun e _ => ⟨.refl _ _, rfl, fun h => absurd rfl h⟩
            · intro residue hf
              refine ⟨?_, rfl, fun _ => hf⟩
              cases residue with
              | none => exact .refl _ _
              | some n => exact kept_update_self k _ _
            · exact fun _ => .inl ⟨rfl, rfl⟩
            · rintro q es ⟨⟩ -
              exact .inr ⟨es, rfl, rfl⟩
        | dir es =>
            refine wp_context (wp_mono (removeDirAll_spec (p := .at k) hk) (fun _ _ h => h)
              fun _ _ h => h.imp (fun h => ⟨?_, h.2.1, fun _ => h.2.2⟩) fun _ h => h)
            rcases h.1 with h | ⟨n, h⟩
            · exact .of_eq h
            · rw [h]
              exact kept_update_self k _ _
  · exact fun h => ⟨.of_eq h.1, h.2.1, fun _ => h.2.2⟩

/-! ## Directories -/

/-- `ensure_directory` finds a directory or creates an empty one. -/
theorem ensureDirectory_spec (p : Path Slot) :
    wp (ensureDirectory env step p)
      (fun _ w' => (w'.fs = w.fs ∧ w.fs.get p ≠ none ∧
          (w'.failed = w.failed → ∃ d, w.fs.get p = some (.dir d))) ∨
        w.fs.get p = none ∧ w'.fs = w.fs.put p (some (.dir [])))
      (Ends (fun w' => w'.fs = w.fs ∧ (w'.failed = w.failed →
        ∃ n, w.fs.get p = some n ∧ ∀ d, n ≠ .dir d)) fun _ w' => w'.fs = w.fs) w := by
  unfold ensureDirectory
  rw [wp_bind]
  refine wp_mono ((within_pathExists (S := (· = step)) rfl p).with (pathExists_spec p)) ?_
    fun _ _ h => h.imp (fun h => h.1.elim) fun _ h => h.1.1
  rintro b w₁ ⟨⟨hfs, hb⟩, hadded⟩
  cases b with
  | true =>
      obtain ⟨hex, hfailed⟩ | ⟨hb, -⟩ := hb
      · simp only [if_true]
        rw [wp_bind]
        refine wp_context (wp_mono (symlinkMetadata_spec p) ?_ fun _ _ h => h.imp ?_ ?_)
        · rintro kind w₂ ⟨rfl, hfs₂, hfailed₂⟩
          rw [hfs] at hfs₂
          unfold Fs.lstat
          rw [hfs]
          cases hget : w.fs.get p with
          | none => simp [Fs.pathExists, hget] at hex
          | some n =>
              cases n with
              | dir d => exact .inl ⟨hfs₂, by simp, fun _ => ⟨d, rfl⟩⟩
              | _ => exact ⟨hfs₂, fun _ => ⟨_, rfl, by simp⟩⟩
        · rintro ⟨hfs₂, hfailed₂, -⟩
          refine ⟨hfs₂.trans hfs, fun heq => ?_⟩
          rw [hfailed₂, hfailed] at heq
          simp at heq
        · exact fun _ h => h.2.trans hfs
      · cases hb
  | false =>
      simp only [Bool.false_eq_true, if_false]
      refine wp_context (wp_perform ?_ ?_ ?_ ?_)
      · intro a fs hop
        rw [hfs] at hop
        obtain ⟨hnone, hfs'⟩ | ⟨hfs', hex⟩ := Fs.createDirAll_eq_ok hop
        · exact .inr ⟨hnone, hfs'⟩
        · -- it is there, so the answer of `stat` was wrong
          refine .inl ⟨hfs', fun hnone => ?_, fun heq => ?_⟩
          · simp [Fs.pathExists, hnone] at hex
          · obtain ⟨hb, -⟩ | ⟨-, hfailed, -⟩ := hb
            · rw [hex] at hb
              cases hb
            · rw [show w₁.failed = w.failed from heq] at hfailed
              simp at hfailed
      · exact fun e _ => ⟨hfs, fun heq => absurd heq (hadded.fail_ne _ _)⟩
      · exact fun _ _ => ⟨hfs, fun heq => absurd heq (hadded.fail_ne _ _)⟩
      · exact fun _ => hfs

/-! ## The persistent layout -/

/-- The move of a directory out of a rootfs. -/
theorem rename_out {fs : Fs Slot} {k : Slot} {es d : Entries} {name : String} {m : Mount}
    (hk : fs k = some (.dir es)) (hd : es.find name = some (.dir d)) {r : Unit × Fs Slot}
    (h : Fs.rename (.in k name) (.at (.persist m)) fs = .ok r) :
    r.2 = Function.update (Function.update fs k (some (.dir (es.erase name)))) (.persist m)
      (some (.dir d)) := by
  obtain ⟨n, hn, hfs, -⟩ := Fs.rename_eq_ok h
  rw [Fs.get_in hk, hd] at hn
  cases hn
  rw [hfs, Fs.put_in_none hk, Fs.put_at]

/-- A directory of the rootfs becomes the persistent one, or stays where it is. -/
theorem moveOut_spec {k : Slot} {es d : Entries} {m : Mount} {name text text' : String}
    (hk : w.fs k = some (.dir es)) (hfind : es.find name = some (.dir d)) :
    wp (do
        context text (perform env step .intact fun fs => .ok ((), fs))
        context text' (rename env step (.in k name) (.at (.persist m))))
      (fun _ w' => w'.fs = Function.update (Function.update w.fs k (some (.dir (es.erase name))))
        (.persist m) (some (.dir d)))
      (Ends (fun w' => w'.fs = w.fs) fun _ w' => w'.fs = w.fs) w := by
  rw [wp_bind]
  refine wp_context (wp_perform ?_ ?_ ?_ ?_)
  · rintro a fs ⟨⟩
    refine wp_context (wp_perform ?_ ?_ ?_ ?_)
    · exact fun _ _ hop => rename_out hk hfind hop
    · exact fun _ _ => rfl
    · exact fun _ _ => rfl
    · exact fun _ => rfl
  · rintro e ⟨⟩
  · exact fun _ _ => rfl
  · exact fun _ => rfl

/-- A persistent directory that is missing is taken from the rootfs, if it has one. -/
theorem adoptSource_spec {k : Slot} {es : Entries} {m : Mount} {name : String}
    (hk : w.fs k = some (.dir es)) :
    wp (adoptSource env step m (.in k name))
      (fun _ w' => (w'.fs = w.fs ∧ (w'.failed = w.failed →
          w.fs.pathExists env.links (.at (.persist m)) = true ∨ es.find name = none)) ∨
        ∃ d, es.find name = some (.dir d) ∧
          w'.fs = Function.update (Function.update w.fs k (some (.dir (es.erase name))))
            (.persist m) (some (.dir d)) ∧
          (w'.failed = w.failed → w.fs.pathExists env.links (.at (.persist m)) = false))
      (Ends (fun w' => w'.fs = w.fs ∧ (w'.failed = w.failed →
        w.fs.pathExists env.links (.at (.persist m)) = false)) fun _ w' => w'.fs = w.fs) w := by
  unfold adoptSource
  rw [wp_bind]
  refine wp_mono ((within_pathExists (S := (· = step)) rfl _).with (pathExists_spec _)) ?_
    fun _ _ h => h.imp (fun h => h.1.elim) fun _ h => h.1.1
  rintro b w₁ ⟨⟨hfs, hb⟩, hadded⟩
  cases b with
  | true =>
      obtain ⟨hex, -⟩ | ⟨hb, -⟩ := hb
      · exact .inl ⟨hfs, fun _ => .inl hex.symm⟩
      · cases hb
  | false =>
      have hmissing : ∀ {w'}, Added (· = step) w₁ w' → w'.failed = w.failed →
          w.fs.pathExists env.links (.at (.persist m)) = false := by
        intro w' hadded' heq
        obtain ⟨hex, -⟩ | ⟨-, hfailed, -⟩ := hb
        · exact hex.symm
        · rw [(hadded.clean hadded' heq).1] at hfailed
          simp at hfailed
      simp only [Bool.false_eq_true, if_false]
      rw [wp_bind]
      refine wp_mono ((within_peek (S := (· = step)) rfl _).with (peek_in_spec (hfs ▸ hk))) ?_
        fun _ _ h => h.imp (fun h => h.1.elim) fun _ h => h.1.trans hfs
      rintro kind w₂ ⟨⟨hfs₂, ⟨rfl, hnone⟩ | ⟨n, hfind, rfl⟩⟩, hadded₂⟩
      · exact .inl ⟨hfs₂.trans hfs, fun heq => .inr (hnone (hadded.clean hadded₂ heq).2)⟩
      · rw [hfs] at hfs₂
        cases n with
        | dir d =>
            have hout : ∀ text text', Within env (· = step) (do
                context text (perform env step .intact fun fs => .ok ((), fs))
                context text' (rename env step (.in k name) (.at (.persist m)))) :=
              fun _ _ => (within_perform (S := (· = step)) _ _ rfl).context.bind fun _ =>
                (within_perform (S := (· = step)) _ _ rfl).context
            refine wp_mono ((hout _ _).with (moveOut_spec (hfs₂ ▸ hk) hfind)) ?_
              fun _ _ h => h.imp ?_ fun _ h => h.1.trans hfs₂
            · rintro - w₃ ⟨hfs₃, hadded₃⟩
              exact .inr ⟨d, hfind, hfs₂ ▸ hfs₃, hmissing (hadded₂.trans hadded₃)⟩
            · rintro ⟨hfs₃, hadded₃⟩
              exact ⟨hfs₃.trans hfs₂, hmissing (hadded₂.trans hadded₃)⟩
        | file content => exact ⟨hfs₂, hmissing hadded₂⟩
        | symlink target => exact ⟨hfs₂, hmissing hadded₂⟩
        | special => exact ⟨hfs₂, hmissing hadded₂⟩

/-- The directory at `k` with other entries, the same as in `es` except at `name`. -/
def OnlyAt (name : String) (k : Slot) (es : Entries) (fs fs' : Fs Slot) : Prop :=
  ∃ es' : Entries, fs' = Function.update fs k (some (.dir es')) ∧
    ∀ other, other ≠ name → es'.find other = es.find other

theorem onlyAt_of_eq {name : String} {k : Slot} {es : Entries} {fs fs' : Fs Slot}
    (hk : fs k = some (.dir es)) (h : fs' = fs) : OnlyAt name k es fs fs' :=
  ⟨es, by rw [h, ← hk, Function.update_eq_self], fun _ _ => rfl⟩

theorem onlyAt_erase (name : String) (k : Slot) (es : Entries) (fs : Fs Slot) :
    OnlyAt name k es fs (Function.update fs k (some (.dir (es.erase name)))) :=
  ⟨_, rfl, fun other h => by rw [Entries.find_erase, if_neg h]⟩

theorem onlyAt_insert (name : String) (k : Slot) (es : Entries) (fs : Fs Slot) (n : Node) :
    OnlyAt name k es fs (Function.update fs k (some (.dir (es.insert name n)))) :=
  ⟨_, rfl, fun other h => by rw [Entries.find_insert, if_neg h]⟩

/-- What stands at the target is removed; nothing else is touched. -/
theorem clearTarget_spec {k : Slot} {es : Entries} {name : String}
    (hk : w.fs k = some (.dir es)) :
    wp (clearTarget env step (.in k name))
      (fun _ w' => OnlyAt name k es w.fs w'.fs)
      (Ends (fun w' => OnlyAt name k es w.fs w'.fs ∧ (w'.failed = w.failed →
        w'.fs = w.fs ∧ es.find name = some .special))
        fun _ w' => OnlyAt name k es w.fs w'.fs) w := by
  unfold clearTarget
  rw [wp_bind]
  refine wp_mono ((within_peek (S := (· = step)) rfl _).with (peek_in_spec hk)) ?_
    fun _ _ h => h.imp (fun h => h.1.elim) fun _ h => onlyAt_of_eq hk h.1
  rintro kind w₁ ⟨⟨hfs, ⟨rfl, -⟩ | ⟨n, hn, rfl⟩⟩, hadded⟩
  · exact onlyAt_of_eq hk hfs
  · have hget : w₁.fs.get (.in k name) = some n := by rw [hfs, Fs.get_in hk, hn]
    have hput : w₁.fs.put (.in k name) none =
        Function.update w.fs k (some (.dir (es.erase name))) := by
      rw [hfs, Fs.put_in_none hk]
    have hunlink : (∀ d, n ≠ .dir d) → wp (unlink env step (.in k name))
        (fun _ w' => OnlyAt name k es w.fs w'.fs)
        (Ends (fun w' => OnlyAt name k es w.fs w'.fs ∧ (w'.failed = w.failed →
          w'.fs = w.fs ∧ es.find name = some .special))
          fun _ w' => OnlyAt name k es w.fs w'.fs) w₁ := by
      intro hne
      refine wp_mono (unlink_spec hget hne) (fun _ w' h => ?_) fun _ w' h =>
        h.imp (fun h => ⟨onlyAt_of_eq hk (h.1.trans hfs), fun heq => ?_⟩)
          fun _ h => onlyAt_of_eq hk (h.2.trans hfs)
      · rw [h.1, hput]
        exact onlyAt_erase name k es w.fs
      · exact absurd (h.2.1.symm.trans heq) (hadded.fail_ne step w₁.fs)
    cases n with
    | symlink target => exact wp_context (hunlink (by simp))
    | file content => exact wp_context (hunlink (by simp))
    | special => exact ⟨onlyAt_of_eq hk hfs, fun _ => ⟨hfs, hn⟩⟩
    | dir d =>
        refine wp_context (wp_mono (removeDirAll_spec hget) (fun _ w' h => ?_) fun _ w' h =>
          h.imp (fun h => ⟨?_, fun heq => ?_⟩) fun _ h => ?_)
        · rw [h.1, hput]
          exact onlyAt_erase name k es w.fs
        · rcases h.1 with h | ⟨n, h⟩
          · exact onlyAt_of_eq hk (h.trans hfs)
          · rw [h, hfs, Fs.put_in_some hk]
            exact onlyAt_insert name k es w.fs n
        · exact absurd (h.2.1.symm.trans heq) (hadded.fail_ne step w₁.fs)
        · rcases h with ⟨-, h⟩ | ⟨d', -, h⟩
          · exact onlyAt_of_eq hk (h.trans hfs)
          · rw [h, hfs, Fs.put_in_some hk]
            exact onlyAt_insert name k es w.fs _

/-- `replace_with_symlink` leaves the link at the target. -/
theorem replaceWithSymlink_spec {k : Slot} {es : Entries} {m : Mount} {name : String}
    (hk : w.fs k = some (.dir es)) :
    wp (replaceWithSymlink env step m (.in k name))
      (fun _ w' => ∃ es' : Entries, w'.fs = Function.update w.fs k (some (.dir es')) ∧
        es'.find name = some (.symlink (env.cfg.path (.persist m))) ∧
        ∀ other, other ≠ name → es'.find other = es.find other)
      (Ends (fun w' => OnlyAt name k es w.fs w'.fs ∧ (w'.failed = w.failed →
        w'.fs = w.fs ∧ es.find name = some .special))
        fun _ w' => OnlyAt name k es w.fs w'.fs) w := by
  unfold replaceWithSymlink
  rw [wp_bind]
  refine wp_mono ((within_clearTarget (S := (· = step)) rfl _).with (clearTarget_spec hk)) ?_
    fun _ _ h => h.imp (fun h => h.1) fun _ h => h.1
  rintro - w₁ ⟨⟨es₁, hfs, hother⟩, hadded⟩
  have hk₁ : w₁.fs k = some (.dir es₁) := by rw [hfs, Function.update_self]
  refine wp_context (wp_perform ?_ ?_ ?_ ?_)
  · intro r fs hop
    unfold Fs.symlink at hop
    split at hop
    · split at hop
      · cases hop
        refine ⟨Entries.insert es₁ name (.symlink (env.cfg.path (.persist m))), ?_, ?_, ?_⟩
        · show w₁.fs.put (.in k name) _ = _
          rw [Fs.put_in_some hk₁, hfs, Function.update_idem]
        · rw [Entries.find_insert, if_pos rfl]
        · intro other hne
          rw [Entries.find_insert, if_neg hne, hother other hne]
      · cases hop
    · cases hop
  · exact fun _ _ => ⟨⟨es₁, hfs, hother⟩, fun heq => absurd heq (hadded.fail_ne _ _)⟩
  · exact fun _ _ => ⟨⟨es₁, hfs, hother⟩, fun heq => absurd heq (hadded.fail_ne _ _)⟩
  · exact fun _ => ⟨es₁, hfs, hother⟩

end FlyVault.Init.Setup
