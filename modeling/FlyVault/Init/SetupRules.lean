/-
  Rules for the setup manager: what each of its helpers does to the data directory, however
  its operations are answered.

  Every rule covers the three ways a program ends: it returns, it fails, or the process dies in
  it. `Within S x` says that all failures of `x` are logged under the steps in `S` and that it
  only dies there. The specs of the helpers say which places they change and what they leave
  there. Where an operation may fail without the caller noticing (`pathExists`, `peek`), a spec says
  more for the case that nothing failed.
-/
import FlyVault.Init.Setup

namespace FlyVault.Init.Setup

open FlyVault.Lib FlyVault.Protocol
open Prog (wp wp_bind wp_pure wp_throw wp_tryCatch wp_mono wp_and)

variable {α β : Type} {env : Env} {step : Step} {w : World}

/-- How a program ends that does not return: with `F` if it fails, with `C` if the process
    dies. -/
def Ends (F : World → Prop) (C : Death → World → Prop) : Stop → World → Prop
  | .error _, w => F w
  | .crash d, w => C d w

/-- Some operation is made to fail. -/
def Faulty (env : Env) : Prop := ∃ n residue, env.plan n = some (.error residue)

/-- The process dies at some operation. -/
def Crashing (env : Env) : Prop := ∃ n left, env.plan n = some (.crash left)

section Rules

variable {Q : α → World → Prop} {F F' : World → Prop} {C C' : Death → World → Prop}

theorem Ends.imp {stop : Stop} (h : Ends F C stop w) (hF : F w → F' w)
    (hC : ∀ d, C d w → C' d w) : Ends F' C' stop w := by
  cases stop with
  | error e => exact hF h
  | crash s => exact hC s h

/-- One program after another, where it does not matter how the process dies. -/
theorem wp_seq {x : M α} {f : α → M β} {Q' : β → World → Prop}
    (hx : wp x Q (Ends F C) w) (hF : ∀ w', F w' → F' w')
    (hf : ∀ a w', Q a w' → wp (f a) Q' (Ends F' fun _ _ => True) w') :
    wp (x >>= f) Q' (Ends F' fun _ _ => True) w := by
  rw [wp_bind]
  exact wp_mono hx hf fun _ w' hw => hw.imp (hF w') fun _ _ => trivial

/-- The rule for any operation; `htorn` is for a death in the middle of it. -/
theorem wp_perform_torn {damage : Damage} {op : Fs Slot → Except String (α × Fs Slot)}
    (hok : ∀ a fs, op w.fs = .ok (a, fs) → Q a (w.next fs))
    (herr : ∀ e, op w.fs = .error e → F (w.fail step w.fs))
    (hfault : ∀ residue, Faulty env → F (w.fail step (damage.apply residue w.fs)))
    (hcrash : Crashing env → C ⟨step, none⟩ w)
    (htorn : ∀ p es, damage = .leave p → Crashing env →
      C ⟨step, some es⟩ { w with fs := w.fs.put p (some (.dir es)) }) :
    wp (perform env step damage op) Q (Ends F C) w := by
  unfold wp perform
  simp only [Prog.exec_prim]
  cases hplan : env.plan w.ops with
  | some fault =>
      cases fault with
      | error residue => exact hfault residue ⟨_, _, hplan⟩
      | crash left =>
          have hcrashing : Crashing env := ⟨_, _, hplan⟩
          cases damage with
          | leave p =>
              cases left with
              | some es => exact htorn p es rfl hcrashing
              | none => exact hcrash hcrashing
          | _ => exact hcrash hcrashing
  | none =>
      cases hop : op w.fs with
      | ok r => exact hok r.1 r.2 hop
      | error e => exact herr e hop

/-- The rule for operations that take place as a whole. -/
theorem wp_perform {op : Fs Slot → Except String (α × Fs Slot)}
    (hok : ∀ a fs, op w.fs = .ok (a, fs) → Q a (w.next fs))
    (herr : ∀ e, op w.fs = .error e → F (w.fail step w.fs))
    (hfault : Option Node → Faulty env → F (w.fail step w.fs))
    (hcrash : Crashing env → C ⟨step, none⟩ w) :
    wp (perform env step .intact op) Q (Ends F C) w :=
  wp_perform_torn hok herr hfault hcrash (by rintro p es ⟨⟩)

theorem wp_attempt {x : M α} {Q : Except String α → World → Prop}
    (h : wp x (fun a => Q (.ok a)) (Ends (fun w' => ∀ e, Q (.error e) w') C) w) :
    wp (attempt x) Q (Ends F C) w := by
  unfold attempt
  rw [wp_tryCatch, wp_bind]
  refine wp_mono h (fun _ _ hq => hq) fun stop w' he => ?_
  cases stop with
  | error e => exact he e
  | crash s => exact he

theorem wp_context {text : String} {x : M α} (h : wp x Q (Ends F C) w) :
    wp (context text x) Q (Ends F C) w := by
  unfold context
  rw [wp_tryCatch]
  refine wp_mono h (fun _ _ hq => hq) fun stop w' he => ?_
  cases stop with
  | error e => exact he
  | crash s => exact he

/-- Two specs of one program. -/
theorem wp_and_ends {x : M α} {Q' : α → World → Prop} (h : wp x Q (Ends F C) w)
    (h' : wp x Q' (Ends F' C') w) :
    wp x (fun a w' => Q a w' ∧ Q' a w')
      (Ends (fun w' => F w' ∧ F' w') fun d w' => C d w' ∧ C' d w') w := by
  refine wp_mono (wp_and h h') (fun _ _ h => h) fun stop w' h => ?_
  cases stop with
  | error e => exact h
  | crash s => exact h

end Rules

/-! ## Failures and where they are logged -/

/-- The failures of `w'` are those of `w` and further ones at steps in `S`. -/
def Added (S : Step → Prop) (w w' : World) : Prop :=
  ∃ new, w'.failed = new ++ w.failed ∧ ∀ s ∈ new, S s

theorem Added.refl (S : Step → Prop) (w : World) : Added S w w :=
  ⟨[], rfl, fun _ h => (by cases h)⟩

theorem Added.trans {S : Step → Prop} {w₁ w₂ w₃ : World} (h : Added S w₁ w₂)
    (h' : Added S w₂ w₃) : Added S w₁ w₃ := by
  obtain ⟨new, heq, hS⟩ := h
  obtain ⟨new', heq', hS'⟩ := h'
  refine ⟨new' ++ new, by rw [heq', heq, List.append_assoc], fun s hs => ?_⟩
  rcases List.mem_append.mp hs with hs | hs
  · exact hS' s hs
  · exact hS s hs

theorem Added.mono {S S' : Step → Prop} {w w' : World} (h : Added S w w')
    (hS : ∀ s, S s → S' s) : Added S' w w' := by
  obtain ⟨new, heq, hnew⟩ := h
  exact ⟨new, heq, fun s hs => hS s (hnew s hs)⟩

theorem Added.length_le {S : Step → Prop} {w w' : World} (h : Added S w w') :
    w.failed.length ≤ w'.failed.length := by
  obtain ⟨new, heq, -⟩ := h
  rw [heq, List.length_append]
  omega

/-- Nothing failed in two parts if nothing failed in the whole. -/
theorem Added.clean {S S' : Step → Prop} {w₁ w₂ w₃ : World} (h : Added S w₁ w₂)
    (h' : Added S' w₂ w₃) (heq : w₃.failed = w₁.failed) :
    w₂.failed = w₁.failed ∧ w₃.failed = w₂.failed := by
  obtain ⟨new, h₁, -⟩ := h
  obtain ⟨new', h₂, -⟩ := h'
  rw [h₂, h₁, ← List.append_assoc] at heq
  have hnil : new' ++ new = [] := List.append_left_eq_self.mp heq
  obtain ⟨rfl, rfl⟩ := List.append_eq_nil_iff.mp hnil
  exact ⟨h₁, h₂⟩

/-- Nothing failed in a part whose step does not appear in the end. -/
theorem Added.eq_of_not_mem {S : Step → Prop} {s : Step} {w₁ w₂ w₃ : World}
    (h : Added (· = s) w₁ w₂) (h' : Added S w₂ w₃) (hnot : s ∉ w₃.failed) :
    w₂.failed = w₁.failed := by
  obtain ⟨new, heq, hnew⟩ := h
  obtain ⟨new', heq', -⟩ := h'
  cases new with
  | nil => exact heq
  | cons s' new =>
      obtain rfl := hnew s' (List.mem_cons_self ..)
      rw [heq', heq] at hnot
      simp at hnot

/-- A failure is not forgotten. -/
theorem Added.fail_ne {S : Step → Prop} {w w₁ : World} (h : Added S w w₁) (s : Step)
    (fs : Fs Slot) : (w₁.fail s fs).failed ≠ w.failed := by
  intro heq
  have hle := h.length_le
  have hlen := congrArg List.length heq
  simp only [World.fail, List.length_cons] at hlen
  omega

/-- All failures of `x` are logged under steps in `S`, and the process dies only there. -/
def Within (env : Env) (S : Step → Prop) (x : M α) : Prop :=
  ∀ w, wp x (fun _ w' => Added S w w')
    (Ends (fun w' => Added S w w') fun d w' =>
      Crashing env ∧ S d.step ∧ Added S w w') w

section Within

variable {S S' : Step → Prop} {x : M α}

/-- A spec, and where its failures are logged. -/
theorem Within.with {Q : α → World → Prop} {F : World → Prop} {C : Death → World → Prop}
    (hx : Within env S x) (h : wp x Q (Ends F C) w) :
    wp x (fun a w' => Q a w' ∧ Added S w w')
      (Ends (fun w' => F w' ∧ Added S w w') fun d w' =>
        C d w' ∧ Crashing env ∧ S d.step ∧ Added S w w') w := by
  exact wp_and_ends h (hx w)

theorem Within.mono (h : Within env S x) (hS : ∀ s, S s → S' s) : Within env S' x :=
  fun w => wp_mono (h w) (fun _ _ h => h.mono hS) fun _ _ h =>
    h.imp (fun h => h.mono hS) fun d h => ⟨h.1, hS d.step h.2.1, h.2.2.mono hS⟩

theorem within_pure (a : α) : Within env S (pure a : M α) := fun w => Added.refl S w

theorem within_throw (e : String) : Within env S (throw (.error e) : M α) :=
  fun w => Added.refl S w

theorem Within.bind {f : α → M β} (hx : Within env S x) (hf : ∀ a, Within env S (f a)) :
    Within env S (x >>= f) := by
  intro w
  rw [wp_bind]
  refine wp_mono (hx w) (fun a w' h => ?_) fun _ _ h => h
  refine wp_mono (hf a w') (fun _ _ h' => h.trans h') fun _ _ h' => h'.imp ?_ ?_
  · exact fun h' => h.trans h'
  · exact fun s h' => ⟨h'.1, h'.2.1, h.trans h'.2.2⟩

theorem within_perform (damage : Damage) (op : Fs Slot → Except String (α × Fs Slot))
    (hS : S step) :
    Within env S (perform env step damage op) := by
  intro w
  have hfail : ∀ fs, Added S w (w.fail step fs) := fun fs =>
    ⟨[step], rfl, fun s hs => List.mem_singleton.mp hs ▸ hS⟩
  exact wp_perform_torn (fun _ _ _ => Added.refl S w) (fun _ _ => hfail _) (fun _ _ => hfail _)
    (fun h => ⟨h, hS, Added.refl S w⟩) fun _ _ _ h => ⟨h, hS, Added.refl S w⟩

theorem Within.attempt (hx : Within env S x) : Within env S (attempt x) :=
  fun w => wp_attempt (wp_mono (hx w) (fun _ _ h => h) fun _ _ h =>
    h.imp (fun h _ => h) fun _ h => h)

theorem Within.context {text : String} (hx : Within env S x) : Within env S (context text x) :=
  fun w => wp_context (hx w)

theorem within_ite {c : Prop} [Decidable c] {y : M α} (hx : Within env S x)
    (hy : Within env S y) : Within env S (if c then x else y) := by
  split
  · exact hx
  · exact hy

theorem within_getRuntime : Within env S getRuntime := fun w => Added.refl S w

theorem within_setRuntime (r : Option Nat) : Within env S (setRuntime r) :=
  fun w => ⟨[], rfl, fun _ h => (by cases h)⟩

section Helpers

variable (hS : S step)
include hS

theorem within_pathExists (p : Path Slot) : Within env S (pathExists env step p) :=
  (within_perform _ _ hS).attempt.bind fun r => by
    cases r <;> exact within_pure _

theorem within_symlinkMetadata (p : Path Slot) : Within env S (symlinkMetadata env step p) :=
  within_perform _ _ hS

theorem within_peek (p : Path Slot) : Within env S (peek env step p) :=
  (within_symlinkMetadata hS p).attempt.bind fun r => by
    cases r <;> exact within_pure _

theorem within_unlink (p : Path Slot) : Within env S (unlink env step p) :=
  (within_perform _ _ hS).bind fun _ => within_ite (within_pure _) (within_throw _)

theorem within_removeDirAll (p : Path Slot) : Within env S (removeDirAll env step p) :=
  within_perform _ _ hS

theorem within_removePathIfExists (p : Path Slot) :
    Within env S (removePathIfExists env step p) :=
  (within_symlinkMetadata hS p).context.bind fun kind =>
    match kind with
    | none => within_pure _
    | some .file => (within_unlink hS p).context
    | some .symlink => (within_unlink hS p).context
    | some .special => (within_removeDirAll hS p).context
    | some .dir => (within_removeDirAll hS p).context

theorem within_resetDir (p : Path Slot) : Within env S (resetDir env step p) :=
  (within_removePathIfExists hS p).bind fun _ => (within_perform _ _ hS).context

theorem within_ensureDirectory (p : Path Slot) : Within env S (ensureDirectory env step p) := by
  refine (within_pathExists hS p).bind fun b => within_ite ?_ (within_perform _ _ hS).context
  refine (within_symlinkMetadata hS p).context.bind fun kind => ?_
  split
  · exact within_pure _
  · exact within_throw _
  · exact within_throw _

theorem within_adoptSource (m : Mount) (target : Path Slot) :
    Within env S (adoptSource env step m target) := by
  refine (within_pathExists hS _).bind fun b => within_ite (within_pure _) ?_
  refine (within_peek hS target).bind fun kind => ?_
  split
  · exact (within_perform _ _ hS).context.bind fun _ => (within_perform _ _ hS).context
  · exact within_throw _
  · exact within_pure _

theorem within_ensurePersistentSourceDir (m : Mount) (target : Path Slot) :
    Within env S (ensurePersistentSourceDir env step m target) :=
  (within_adoptSource hS m target).bind fun _ => within_ensureDirectory hS _

theorem within_clearTarget (target : Path Slot) : Within env S (clearTarget env step target) := by
  refine (within_peek hS target).bind fun kind => ?_
  split
  · exact (within_unlink hS target).context
  · exact (within_unlink hS target).context
  · exact (within_removeDirAll hS target).context
  · exact within_throw _
  · exact within_pure _

theorem within_replaceWithSymlink (m : Mount) (target : Path Slot) :
    Within env S (replaceWithSymlink env step m target) :=
  (within_clearTarget hS target).bind fun _ => (within_perform _ _ hS).context

theorem within_prepareMount (dir : Slot) (m : Mount) :
    Within env S (prepareMount env step dir m) :=
  (within_ensurePersistentSourceDir hS m _).bind fun _ =>
    within_ite (within_replaceWithSymlink hS m _) (within_ensureDirectory hS _)

theorem within_preparePersistentLayout (dir : Slot) :
    Within env S (preparePersistentLayout env step dir) :=
  (within_prepareMount hS dir _).bind fun _ => within_prepareMount hS dir _

theorem within_linkMount (dir : Slot) (m : Mount) : Within env S (linkMount env step dir m) :=
  (within_ensurePersistentSourceDir hS m _).bind fun _ => within_replaceWithSymlink hS m _

theorem within_clearFallbackMarker : Within env S (clearFallbackMarker env step) :=
  (within_perform _ _ hS).context.bind fun _ => within_pure _

theorem within_storeProvisionMarker : Within env S (storeProvisionMarker env step) :=
  (within_perform _ _ hS).context

theorem within_launch : Within env S (launch env step) :=
  (within_clearFallbackMarker hS).bind fun _ => (within_perform _ _ hS).context.bind fun _ =>
    fun w => ⟨[], rfl, fun _ h => (by cases h)⟩

theorem within_ensureRuntimeStarted : Within env S (ensureRuntimeStarted env step) := by
  refine within_ite ?_ ?_
  · exact ((within_linkMount hS _ _).bind fun _ => within_linkMount hS _ _).bind fun _ =>
      within_setRuntime _
  · refine within_getRuntime.bind fun r => ?_
    cases r with
    | none => exact within_launch hS
    | some pid =>
        refine (within_perform _ _ hS).context.bind fun poll => ?_
        cases poll with
        | alive => exact within_pure _
        | exited => exact (within_setRuntime _).bind fun _ => within_launch hS

theorem within_stopRuntime : Within env S (stopRuntime env step) := by
  refine within_getRuntime.bind fun r => ?_
  cases r with
  | none => exact within_pure _
  | some pid =>
      exact (within_setRuntime _).bind fun _ =>
        within_ite (within_pure _) (within_clearFallbackMarker hS)

end Helpers

theorem within_extractRootfs (hS : S .stage) (data : Bytes) :
    Within env S (extractRootfs env data) :=
  ((within_perform _ _ hS).bind fun _ => within_ite (within_pure _) (within_throw _)).context

theorem within_stageRootfs (hS : S .stage) (data : Bytes) :
    Within env S (stageRootfs env data) :=
  (within_resetDir hS _).bind fun _ => (within_extractRootfs hS data).bind fun _ =>
    within_preparePersistentLayout hS _

end Within

end FlyVault.Init.Setup
