import EditorLink.Schedule

/-! Whoever is ready stays so while others are woken, and what every turn and every move of the clock
keeps is kept by all that waiting comes to. -/
namespace EditorLink

namespace Schedule

@[simp] theorem mem_wake (s : Schedule) (task k : Nat) :
    k ∈ (s.wake task).ready ↔ k ∈ s.ready ∨ k = task := by
  unfold wake
  split
  next there =>
    constructor
    · exact .inl
    · rintro (h | rfl)
      · exact h
      · exact there
  · simp

@[simp] theorem mem_wakeAll (s : Schedule) (tasks : List Nat) (k : Nat) :
    k ∈ (s.wakeAll tasks).ready ↔ k ∈ s.ready ∨ k ∈ tasks := by
  unfold wakeAll
  induction tasks generalizing s with
  | nil => simp
  | cons task rest ih => rw [List.foldl_cons,ih,mem_wake,List.mem_cons,or_assoc]

theorem mem_arrive {s : Schedule} {now k : Nat} (ready : k ∈ s.ready) : k ∈ (s.arrive now).ready := by
  rw [arrive,mem_wakeAll]
  exact .inl ready

@[simp] theorem wake_now (s : Schedule) (task : Nat) : (s.wake task).now = s.now := by
  unfold wake
  split <;> rfl

@[simp] theorem wake_timers (s : Schedule) (task : Nat) : (s.wake task).timers = s.timers := by
  unfold wake
  split <;> rfl

theorem wake_ready (s : Schedule) (task : Nat) :
    ∃ more, (s.wake task).ready = s.ready ++ more ∧ ∀ j ∈ more, j = task := by
  unfold wake
  split
  · exact ⟨[],by simp,by simp⟩
  · exact ⟨[task],rfl,by simp⟩

theorem wake_nodup {s : Schedule} (nodup : s.ready.Nodup) (task : Nat) : (s.wake task).ready.Nodup := by
  unfold wake
  split
  · exact nodup
  · rename_i new
    exact List.nodup_append.mpr ⟨nodup,by simp,fun a member b same => by
      rw [List.mem_singleton.mp same]
      rintro rfl
      exact new member⟩

@[simp] theorem wakeAll_now (s : Schedule) (tasks : List Nat) : (s.wakeAll tasks).now = s.now := by
  unfold wakeAll
  induction tasks generalizing s with
  | nil => rfl
  | cons task rest ih => rw [List.foldl_cons,ih,wake_now]

@[simp] theorem wakeAll_timers (s : Schedule) (tasks : List Nat) :
    (s.wakeAll tasks).timers = s.timers := by
  unfold wakeAll
  induction tasks generalizing s with
  | nil => rfl
  | cons task rest ih => rw [List.foldl_cons,ih,wake_timers]

theorem wakeAll_ready (s : Schedule) (tasks : List Nat) :
    ∃ more, (s.wakeAll tasks).ready = s.ready ++ more ∧ ∀ j ∈ more, j ∈ tasks := by
  unfold wakeAll
  induction tasks generalizing s with
  | nil => exact ⟨[],by simp,by simp⟩
  | cons task rest ih =>
    obtain ⟨one,first,known⟩ := s.wake_ready task
    obtain ⟨more,next,members⟩ := ih (s.wake task)
    refine ⟨one ++ more,by rw [List.foldl_cons,next,first,List.append_assoc],fun j member => ?_⟩
    rcases List.mem_append.mp member with h | h
    · exact known j h ▸ List.mem_cons_self
    · exact List.mem_cons_of_mem task (members j h)

theorem wakeAll_nodup {s : Schedule} (nodup : s.ready.Nodup) (tasks : List Nat) :
    (s.wakeAll tasks).ready.Nodup := by
  unfold wakeAll
  induction tasks generalizing s with
  | nil => exact nodup
  | cons task rest ih => exact ih (wake_nodup nodup task)

end Schedule

namespace Scheduled
variable {σ : Type} [Scheduled σ] {P : σ → Prop}

theorem turnsUpTo_keeps (turned : ∀ s, P s → P (turn s)) (n : Nat) {s : σ} (holds : P s) :
    P (turnsUpTo n s) := by
  induction n generalizing s with
  | zero => exact holds
  | succ n ih =>
    rw [turnsUpTo]
    split
    · exact holds
    · exact ih (turned s holds)

theorem drain_keeps (turned : ∀ s, P s → P (turn s)) {s : σ} (holds : P s) : P (drain s) :=
  turnsUpTo_keeps turned _ holds

theorem advance_keeps (turned : ∀ s, P s → P (turn s)) (arrived : ∀ now s, P s → P (arriveAt now s))
    (ms : Nat) {s : σ} (holds : P s) : P (advance ms s) := by
  have along (target now : Nat) (s : σ) (holds : P s) : P (runTo target now s) := by
    fun_induction runTo target now s with
    | case1 now s early idle stop ih => exact ih (arrived stop idle (drain_keeps turned holds))
    | case2 now s late => exact holds
  exact along _ _ s holds

end Scheduled
end EditorLink
