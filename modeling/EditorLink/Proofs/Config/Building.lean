import EditorLink.Config.Read
import EditorLink.Proofs.Duration
import Mathlib.Data.List.Induction

/-! Configurations that are made by changes, one after another. Of the changes of one field the last one
counts, whatever is changed in between, and spans of time are stored as well as whole milliseconds can tell
them. -/
namespace EditorLink
namespace Config

namespace Change

/-- The field that is changed. -/
def field : Change → Field
  | editorId _ => .editorId
  | live _ => .live
  | stopTimeout _ => .stopTimeout
  | pollInterval _ => .pollInterval

def id? : Change → Option String
  | editorId id => some id
  | _ => none

def live? : Change → Option Bool
  | live on => some on
  | _ => none

def timeout? : Change → Option Duration
  | stopTimeout d => some d
  | _ => none

def interval? : Change → Option Duration
  | pollInterval d => some d
  | _ => none

end Change

/-- All changes, one after another. -/
def built (c : Config) (changes : List Change) : Config := changes.foldl apply c

/-- What the last change tells that tells anything. -/
def lastTold? {α : Type} (tells : Change → Option α) (changes : List Change) : Option α :=
  changes.reverse.findSome? tells

section Changes

variable {c : Config} {a b : Change} {changes : List Change}

theorem apply_comm (apart : a.field ≠ b.field) : (c.apply a).apply b = (c.apply b).apply a := by
  cases a <;> cases b <;> first | exact absurd rfl apart | rw [apply,apply,apply,apply]

theorem apply_apply (same : a.field = b.field) : (c.apply a).apply b = c.apply b := by
  cases a <;> cases b <;> cases same <;> rw [apply,apply,apply]

theorem built_concat : c.built (changes ++ [a]) = (c.built changes).apply a := List.foldl_append

theorem lastTold?_concat {α : Type} (tells : Change → Option α) :
    lastTold? tells (changes ++ [a]) = (tells a).or (lastTold? tells changes) := by
  rw [lastTold?,List.reverse_concat,List.findSome?_cons]
  cases tells a <;> rfl

/-- Each field has what its last change tells, or else what it had before. -/
theorem built_eq (c : Config) (changes : List Change) : c.built changes =
    { editorId := (lastTold? Change.id? changes).getD c.editorId
      stopTimeout := ((lastTold? Change.timeout? changes).map Duration.toMillis).getD c.stopTimeout
      pollInterval := ((lastTold? Change.interval? changes).map Duration.toMillis).getD c.pollInterval
      live := (lastTold? Change.live? changes).getD c.live } := by
  induction changes using List.reverseRecOn with
  | nil => rfl
  | append_singleton changes a ih =>
    rw [built_concat,ih]
    cases a <;> simp [apply,lastTold?_concat,Change.id?,Change.timeout?,Change.interval?,Change.live?]

/-- The last changes make sense: the interval is a millisecond or more and not longer than the timeout, and the
editor has a name. -/
structure EndsWell (c : Config) (changes : List Change) (limit pause : Duration) : Prop where
  timeout : lastTold? Change.timeout? changes = some limit
  interval : lastTold? Change.interval? changes = some pause
  positive : .ofMillis 1 ≤ pause
  within : pause ≤ limit
  named : Text.allBlank ((lastTold? Change.id? changes).getD c.editorId) = false

variable {limit pause : Duration}

theorem EndsWell.counts (ends : EndsWell c changes limit pause) :
    (c.built changes).stopTimeout = limit.toMillis ∧ (c.built changes).pollInterval = pause.toMillis := by
  rw [built_eq,ends.timeout,ends.interval]
  exact ⟨rfl,rfl⟩

/-- The order of the two spans outlives that both are cut to whole milliseconds. -/
theorem EndsWell.valid (ends : EndsWell c changes limit pause) : (c.built changes).validate = .ok () := by
  obtain ⟨timeout,interval⟩ := ends.counts
  have positive : 1 ≤ pause.toMillis := Duration.ofMillis_le.mp ends.positive
  have within : pause.toMillis ≤ limit.toMillis := Duration.toMillis_mono ends.within
  have nonzero {n : UInt64} (least : 1 ≤ n) : n ≠ 0 := by
    rintro rfl
    exact absurd least (by decide)
  refine valid_of_holds fun r => ?_
  cases r with
  | idNotBlank =>
    have named : (c.built changes).editorId = (lastTold? Change.id? changes).getD c.editorId := by rw [built_eq]
    rw [Rule.Holds,named]
    exact ends.named
  | timeoutPositive =>
    rw [Rule.Holds,timeout]
    exact nonzero (UInt64.le_trans positive within)
  | pollPositive =>
    rw [Rule.Holds,interval]
    exact nonzero positive
  | pollWithinTimeout =>
    rw [Rule.Holds,timeout,interval]
    exact within

end Changes

/-- How well a field keeps a span of time. Its count of milliseconds is cut to the greatest one and does not
wrap around, reading the count loses nothing, and counting again what was read gives the same. What is read is
the longest span of whole milliseconds that can be counted and is not longer than the one that was given. -/
structure KeepsSpans (change : Duration → Change) (count : Config → UInt64) (span : Config → Duration) :
    Prop where
  counted : ∀ (c : Config) (d : Duration), (count (c.apply (change d))).toNat = min (d.totalNanos / 1000000) greatestCount
  told : ∀ c, (span c).totalNanos = (count c).toNat * 1000000
  again : ∀ c, (span c).toMillis = count c
  greatest : ∀ (c : Config) (d : Duration), IsGreatest {e | e.Whole ∧ e ≤ d ∧ e ≤ .longest} (span (c.apply (change d)))
  monotone : ∀ c : Config, Monotone fun d => span (c.apply (change d))
  idempotent : ∀ (c : Config) (d : Duration), c.apply (change (span (c.apply (change d)))) = c.apply (change d)

theorem keepsSpans_of {change : Duration → Change} {count : Config → UInt64} {span : Config → Duration}
    (counts : ∀ (c : Config) (d : Duration), count (c.apply (change d)) = d.toMillis) (spans : ∀ c, span c = .ofMillis (count c))
    (only : ∀ (c : Config) (d e : Duration), d.toMillis = e.toMillis → c.apply (change d) = c.apply (change e)) :
    KeepsSpans change count span := by
  have kept (c : Config) (d : Duration) : span (c.apply (change d)) = d.kept := by rw [spans,counts,Duration.kept]
  refine ⟨fun c d => ?_,fun c => ?_,fun c => ?_,fun c d => ?_,fun c d e le => ?_,fun c d => only c _ _ ?_⟩
  · rw [counts,Duration.toNat_toMillis]
  · rw [spans,Duration.totalNanos_ofMillis]
  · rw [spans,Duration.toMillis_ofMillis]
  · rw [kept]
    exact d.kept_isGreatest
  · simp only [kept]
    exact Duration.kept_mono le
  · rw [kept,Duration.kept,Duration.toMillis_ofMillis]

theorem timeout_keepsSpans : KeepsSpans .stopTimeout stopTimeout timeout :=
  keepsSpans_of (fun _ _ => rfl) (fun _ => rfl) fun c d e same => by rw [apply,apply,same]

theorem interval_keepsSpans : KeepsSpans .pollInterval pollInterval interval :=
  keepsSpans_of (fun _ _ => rfl) (fun _ => rfl) fun c d e same => by rw [apply,apply,same]

end Config
end EditorLink
