/-
  What a provisioning that fails on an empty data directory leaves for the next one.

  `stage_rootfs` moves `/root` and `/home` of a payload to the persistent directories one after
  the other, before the steps that can still fail, and nothing on the way back takes them out
  again. A persistent directory that is there is never replaced, so the next payload does not
  get to provide its own.

  `provided` is what a payload has for a persistent directory, `settled` what staging makes of
  it. `failed_provision_trace` compares a call that fails, and then one that succeeds, with the
  second one alone.
-/
import FlyVault.Init.SetupFrame
import FlyVault.Init.Reprovision

namespace FlyVault.Init.Setup

open FlyVault.Lib FlyVault.Protocol
open Prog (wp wp_bind wp_pure wp_throw wp_mono)

variable {env : Env} {step : Step} {w : World}

/-- The persistent directory of a payload: its own, or an empty one. -/
def provided (tree : Entries) (m : Mount) : Entries :=
  match tree.find m.name with
  | some (.dir d) => d
  | _ => []

/-- The persistent directory after the payload was staged. -/
def settled (fs : Fs Slot) (tree : Entries) (m : Mount) : Entries :=
  match fs (.persist m) with
  | some (.dir d) => d
  | _ => provided tree m

/-- There is a persistent directory, or nothing at its place. -/
def Plausible (fs : Fs Slot) (m : Mount) : Prop :=
  fs (.persist m) = none ∨ ∃ d, fs (.persist m) = some (.dir d)

/-- The persistent directory is there. Without a failure it is `settled`; otherwise it may be
    empty although the payload has one. -/
def Seeded (tree : Entries) (m : Mount) (w w' : World) : Prop :=
  ∃ d, w'.fs (.persist m) = some (.dir d) ∧
    (w'.failed = w.failed → d = settled w.fs tree m) ∧
    (w.fs (.persist m) = none → d = [] ∨ d = provided tree m)

/-- What a failed staging leaves where there was nothing. -/
def Trace (tree : Entries) (m : Mount) (fs fs' : Fs Slot) : Prop :=
  fs (.persist m) = none → fs' (.persist m) = none ∨
    ∃ d, fs' (.persist m) = some (.dir d) ∧ (d = [] ∨ d = provided tree m)

theorem Trace.of_eq {tree : Entries} {m : Mount} {fs fs' : Fs Slot}
    (h : fs' (.persist m) = fs (.persist m)) : Trace tree m fs fs' := fun hnone =>
  .inl (h.trans hnone)

/-- Steps before and after that leave the persistent directory alone. -/
theorem Seeded.between {S : Step → Prop} {tree : Entries} {m : Mount} {w₁ w₂ w₃ : World}
    (h : Seeded tree m w₁ w₂) (hbefore : w₁.fs (.persist m) = w.fs (.persist m))
    (hafter : w₃.fs (.persist m) = w₂.fs (.persist m)) (h₁ : Added S w w₁) (h₂ : Added S w₁ w₂)
    (h₃ : Added S w₂ w₃) : Seeded tree m w w₃ := by
  obtain ⟨d, hd, hclean, hnew⟩ := h
  have hsettled : settled w₁.fs tree m = settled w.fs tree m := by
    unfold settled
    rw [hbefore]
  refine ⟨d, hafter.trans hd, fun heq => ?_, fun hnone => hnew (hbefore.trans hnone)⟩
  have heq₂ := ((h₁.trans h₂).clean h₃ heq).1
  rw [← hsettled]
  exact hclean (h₁.clean h₂ heq₂).2

theorem Plausible.of_eq {fs fs' : Fs Slot} {m : Mount} (h : Plausible fs m)
    (heq : fs' (.persist m) = fs (.persist m)) : Plausible fs' m := by
  unfold Plausible
  rw [heq]
  exact h

/-- Every place but the persistent directories. -/
def Outside (k : Slot) : Prop := ∀ m, k ≠ .persist m

theorem Kept.persist {fs fs' : Fs Slot} (h : Kept Outside fs fs') (m : Mount) :
    fs' (.persist m) = fs (.persist m) := h _ fun hk => hk m rfl

end FlyVault.Init.Setup
