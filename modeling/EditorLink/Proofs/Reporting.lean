import EditorLink.Proofs.Config.Building
import EditorLink.Proofs.Outcome
import EditorLink.Proofs.Serene
import EditorLink.Proofs.Stopping

/-! What a stop attempt reports when its time is up: the timeout of the link that started it, to the
millisecond, as the configuration of the link has it. -/
namespace EditorLink
open World EditorLink.Action

namespace World

variable {s : Setting} {v w : World} {n p : Nat} {e : LinkError}

theorem verdictOf_eq_some {v : Verdict} :
    w.verdictOf p = some v ↔ ∃ x, w.outcomes[p]? = some x ∧ x.value = some v := by
  simp only [verdictOf,World.outcomes,List.getElem?_map,Option.bind_eq_some_iff,Option.map_eq_some_iff]
  constructor
  · rintro ⟨x,there,value⟩
    exact ⟨x.core,⟨x,there,rfl⟩,value⟩
  · rintro ⟨_,⟨x,there,rfl⟩,value⟩
    exact ⟨x,there,value⟩

/-- At some time in the run the link has started the attempt. -/
def StartedBy (s : Setting) (w : World) (n p : Nat) : Prop :=
  ∃ v, Reaches (fun _ => True) s.start v ∧ Reaches (fun _ => True) v w ∧ v.stopOf n = some p

/-- The attempt's time is up: its deadline has come and its model is still active, and asking the model does not
crash. -/
structure TimesOut (w : World) (id p : Nat) (plan : StopPlan) (deadline : Nat) : Prop where
  own : w.Pursues id p plan (some deadline)
  kept : w.isCancelled p = false
  late : deadline ≤ w.now
  active : w.modelActive plan.model = true
  interrupt : .interrupt ∉ w.sites
  isActive : .isActive ∉ w.sites

/-- Whoever waits for the attempt is told this verdict, and so are its continuations. -/
structure Tells (w : World) (p : Nat) (v : Verdict) : Prop where
  waits : ∀ id label, w.tasks[id]? = some (some { label := some label, job := .wait p }) →
    (w.turn id).events = w.events ++ [⟨w.now,label,.waited v⟩]
  continuations : ∀ id label, w.tasks[id]? = some (some { label := some label, job := .continuation p }) →
    (w.turn id).events = w.events ++ [⟨w.now,label,.continued v⟩]

theorem tells_of_settled {v : Verdict} (settled : w.verdictOf p = some v) (kept : w.isCancelled p = false) :
    w.Tells p v := by
  have answered : w.promises[p]?.bind Promise.answer? = some (some v) := by
    obtain ⟨x,there,value⟩ := Option.bind_eq_some_iff.mp settled
    have uncancelled : x.cancelled = false := by simpa [isCancelled,there] using kept
    simp [there,Promise.answer?,uncancelled,value]
  have awaited (id : Nat) : exec (await id p) (w.taken id) = (.ok (some (some v)),w.taken id) :=
    exec_await_answered (w := w.taken id) id answered
  refine ⟨fun id label there => ?_,fun id label there => ?_⟩
  · have ran : exec (resume id (.wait p)) (w.taken id) = (.ok (.finish (some (.waited v))),w.taken id) :=
      exec_bind_ok (awaited id)
    exact (turn_reports there rfl rfl ran).2
  · have ran : exec (resume id (.continuation p)) (w.taken id) = (.ok (.finish (some (.continued v))),w.taken id) :=
      exec_bind_ok (awaited id)
    exact (turn_reports there rfl rfl ran).2

/-- A link has an attempt of its own, until it cancels it, from when it started it on. -/
theorem stopOf_later (orderly : v.Orderly) (reached : Reaches (fun _ => True) v w) (stop : v.stopOf n = some p)
    (kept : w.isCancelled p = false) : w.stopOf n = some p := by
  have onward := (reaches_goes (fun _ _ => trivial) reached orderly).2
  rcases onward.stops n with same | ⟨gone,-⟩
  · exact same.trans stop
  · rw [gone p stop] at kept
    cases kept

/-- An attempt that has failed is one that its link still had when its time was up. -/
theorem StartedBy.failed (started : StartedBy s w n p) (failed : w.verdictOf p = some (.error e)) :
    ∃ u id plan deadline, Reaches (fun _ => True) u w ∧ u.Orderly ∧ u.stopOf n = some p ∧
      u.Pursues id p plan deadline ∧ e = .stopTimedOut plan.timeout := by
  obtain ⟨v,first,later,stop⟩ := started
  obtain ⟨x,there,value⟩ := verdictOf_eq_some.mp failed
  have begun : s.start.Orderly := orderly_of_reached (Frame.refl _)
  rcases failed_between (orderly_of_reached first) later there value with
    ⟨y,before,value⟩ | ⟨u,id,plan,deadline,goes,rest,own,kept,late⟩
  · -- it had failed by the time at which the link is known to have it
    rcases failed_between begun first before value with
      ⟨z,none,-⟩ | ⟨u,id,plan,deadline,goes,rest,own,-,late⟩
    · cases none
    · have orderly := orderly_of_reached goes
      have onward := (reaches_goes (fun _ _ => trivial) rest orderly).2
      exact ⟨u,id,plan,deadline,Frame.trans rest later,orderly,onward.slot orderly own stop,own,late⟩
  · exact ⟨u,id,plan,deadline,rest,orderly_of_reached (Frame.trans first goes),
      stopOf_later (orderly_of_reached first) goes stop kept,own,late⟩

theorem StartedBy.orderly (started : StartedBy s w n p) : w.Orderly := by
  obtain ⟨v,first,later,-⟩ := started
  exact orderly_of_reached (Frame.trans first later)

/-- An attempt goes by the plan of the link that started it. -/
theorem StartedBy.plan {id : Nat} {plan : StopPlan} {deadline : Option Nat} {l : Link} (started : StartedBy s w n p)
    (link : w.links[n]? = some l) (own : w.Pursues id p plan deadline) (kept : w.isCancelled p = false) :
    l.plan = plan := by
  have orderly := started.orderly
  obtain ⟨v,first,later,stop⟩ := started
  have known := orderly.owner n p id plan deadline (stopOf_later (orderly_of_reached first) later stop kept) own
  rw [planOf,link] at known
  exact Option.some.inj known

/-- Its next turn ends it, and reports the count that the link's configuration stores. -/
theorem StartedBy.expires {id deadline : Nat} {plan : StopPlan} {l : Link} (started : StartedBy s w n p)
    (link : w.links[n]? = some l) (out : w.TimesOut id p plan deadline) :
    (w.turn id).verdictOf p = some (.error (.stopTimedOut l.config.stopTimeout.toNat)) := by
  have decided : w.decides plan (some deadline) = .settle (.error (.stopTimedOut plan.timeout)) := by
    simp [decides,StopPlan.check,out.active,out.late]
  obtain ⟨x,there,-⟩ := started.orderly.pursued id p plan (some deadline) out.own
  obtain ⟨-,outcomes⟩ := turn_settles out.own out.kept out.interrupt out.isActive decided
  rw [← started.plan link out.own out.kept] at outcomes
  exact verdictOf_eq_some.mpr ⟨x.ended (some (.error (.stopTimedOut l.plan.timeout))),by simp [outcomes,there],rfl⟩

theorem StartedBy.reports (started : StartedBy s w n p) {l : Link} (link : w.links[n]? = some l)
    (failed : w.verdictOf p = some (.error e)) : e = .stopTimedOut l.config.stopTimeout.toNat := by
  obtain ⟨u,id,plan,deadline,rest,orderly,stop,own,late⟩ := started.failed failed
  have planned := (reaches_goes (fun _ _ => trivial) rest orderly).2.plans n plan
    (orderly.owner n p id plan deadline stop own)
  rw [planOf,link] at planned
  cases planned
  exact late

/-- No attempt that fails comes from nowhere. -/
theorem startedBy_of_failed (reached : Reaches (fun _ => True) s.start w) (failed : w.verdictOf p = some (.error e)) :
    ∃ n l, StartedBy s w n p ∧ w.links[n]? = some l := by
  obtain ⟨x,there,value⟩ := verdictOf_eq_some.mp failed
  rcases failed_between (orderly_of_reached (Frame.refl _)) reached there value with
    ⟨y,none,-⟩ | ⟨u,id,plan,deadline,goes,rest,own,kept,-⟩
  · cases none
  · have orderly := orderly_of_reached goes
    rcases orderly.owned id p plan deadline own with gone | ⟨n,stop⟩
    · rw [kept] at gone
      cases gone
    · have planned := (reaches_goes (fun _ _ => trivial) rest orderly).2.plans n plan
        (orderly.owner n p id plan deadline stop own)
      obtain ⟨l,link,-⟩ := Option.map_eq_some_iff.mp planned
      exact ⟨n,l,⟨u,goes,rest,stop⟩,link⟩

end World

open Config

/-- Spans of time are stored faithfully. A timeout and an interval are kept as the longest spans of whole
milliseconds that can be counted and are not longer than what was given, no count on the way wraps around, the
order of two spans is kept, and what was read may be stored again. Changes of different fields commute, and of
the changes of one field the last one counts, so a configuration has what the last changes say. If these give
an interval of a millisecond or more, a timeout that is not shorter and an editor that has a name, the
configuration is valid. In every run, whoever crashes in it, an attempt whose time is up reports so in its next
turn, with the very count of milliseconds that the configuration of the link that started it stores. An attempt
that has failed was started by some link and has reported nothing but that; and unless it is cancelled, everyone
who waits for it is told so. -/
theorem spans_are_stored_faithfully :
    (∀ d : Duration, d.totalNanos < 1 <<< 96) ∧
    KeepsSpans .stopTimeout stopTimeout timeout ∧ KeepsSpans .pollInterval pollInterval interval ∧
    (∀ (c : Config) (a b : Change), a.field ≠ b.field → (c.apply a).apply b = (c.apply b).apply a) ∧
    (∀ (c : Config) (a b : Change), a.field = b.field → (c.apply a).apply b = c.apply b) ∧
    (∀ (c : Config) (changes : List Change), c.built changes =
      { editorId := (lastTold? Change.id? changes).getD c.editorId
        stopTimeout := ((lastTold? Change.timeout? changes).map Duration.toMillis).getD c.stopTimeout
        pollInterval := ((lastTold? Change.interval? changes).map Duration.toMillis).getD c.pollInterval
        live := (lastTold? Change.live? changes).getD c.live }) ∧
    (∀ (c : Config) (changes : List Change) (limit pause : Duration), EndsWell c changes limit pause →
      (c.built changes).validate = .ok () ∧
      ∀ (s : Setting) (w : World) (n p : Nat) (l : Link) (e : LinkError), StartedBy s w n p →
        w.links[n]? = some l → l.config = c.built changes → w.verdictOf p = some (.error e) →
          e = .stopTimedOut (min (limit.totalNanos / 1000000) greatestCount)) ∧
    (∀ (s : Setting) (w : World) (n p id deadline : Nat) (plan : StopPlan) (l : Link), StartedBy s w n p →
      w.links[n]? = some l → w.TimesOut id p plan deadline →
        (w.turn id).verdictOf p = some (.error (.stopTimedOut l.config.stopTimeout.toNat))) ∧
    ∀ (s : Setting) (w : World) (p : Nat) (e : LinkError), Reaches (fun _ => True) s.start w →
      w.verdictOf p = some (.error e) → (∃ n l, StartedBy s w n p ∧ w.links[n]? = some l) ∧
        (∀ n l, StartedBy s w n p → w.links[n]? = some l → e = .stopTimedOut l.config.stopTimeout.toNat) ∧
        (w.isCancelled p = false → w.Tells p (.error e)) := by
  refine ⟨Duration.totalNanos_lt,timeout_keepsSpans,interval_keepsSpans,fun _ _ _ => apply_comm,
    fun _ _ _ => apply_apply,built_eq,fun c changes limit pause ends => ⟨ends.valid,?_⟩,
    fun s w n p id deadline plan l started link out => started.expires link out,fun s w p e reached failed => ?_⟩
  · intro s w n p l e started link built failed
    rw [started.reports link failed,built,ends.counts.1,Duration.toNat_toMillis]
  · exact ⟨startedBy_of_failed reached failed,fun n l started link => started.reports link failed,
      fun kept => tells_of_settled failed kept⟩

def hurriedChanges : List Change :=
  [.stopTimeout { seconds := 3, nanos := 0 },.editorId "  ",.pollInterval { seconds := 0, nanos := 10900000 },
    .editorId "editor",.live true,.stopTimeout { seconds := 0, nanos := 25999999 }]

def hurriedSetting : Setting where
  configs := [({} : Config).built hurriedChanges]

/-- The link's model stalls, and time goes by until the deadline of a stop attempt. -/
def hurriedAttempt : World :=
  hurriedSetting.start.run [.perform 0 (.create "a" 0),.turn 0,.turn 1,.turn 0,.perform 1 (.outside (.stall 0)),
    .perform 2 (.stop "a" true),.turn 2,.arrive 10,.turn 2,.arrive 20,.turn 2,.arrive 25]

/-- A timeout that is given as a nanosecond short of twenty-six milliseconds is reported as twenty-five. -/
theorem cut_timeout_is_reported :
    (({} : Config).built hurriedChanges).validate = .ok () ∧
      (hurriedAttempt.turn 2).verdictOf 1 = some (.error (.stopTimedOut 25)) ∧
      ((hurriedAttempt.run [.turn 2,.perform 3 (.wait 2)]).turn 3).events =
        (hurriedAttempt.run [.turn 2,.perform 3 (.wait 2)]).events ++ [⟨25,3,.waited (.error (.stopTimedOut 25))⟩] := by
  have ends : EndsWell {} hurriedChanges { seconds := 0, nanos := 25999999 } { seconds := 0, nanos := 10900000 } :=
    ⟨rfl,rfl,by decide,by decide,by decide⟩
  have first : Reaches (fun _ => True) hurriedSetting.start hurriedAttempt := ⟨_,fun _ _ => trivial,rfl⟩
  have later : Reaches (fun _ => True) hurriedAttempt (hurriedAttempt.run [.turn 2,.perform 3 (.wait 2)]) :=
    ⟨_,fun _ _ => trivial,rfl⟩
  have out : hurriedAttempt.TimesOut 2 1 ⟨0,25,10⟩ 25 := ⟨rfl,rfl,by decide,rfl,nofun,nofun⟩
  obtain ⟨-,-,-,-,-,-,built,expires,runs⟩ := spans_are_stored_faithfully
  obtain ⟨valid,reports⟩ := built {} hurriedChanges _ _ ends
  have expired := expires hurriedSetting hurriedAttempt 0 1 2 25 _ _ ⟨hurriedAttempt,first,Frame.refl _,rfl⟩ rfl out
  have fails : ∃ e, (hurriedAttempt.run [.turn 2,.perform 3 (.wait 2)]).verdictOf 1 = some (.error e) := ⟨_,rfl⟩
  obtain ⟨e,failed⟩ := fails
  have report := reports hurriedSetting _ 0 1 _ e ⟨hurriedAttempt,first,later,rfl⟩ rfl rfl failed
  have count : min (Duration.totalNanos { seconds := 0, nanos := 25999999 } / 1000000) greatestCount = 25 := by decide
  rw [count] at report
  subst report
  obtain ⟨-,-,tells⟩ := runs hurriedSetting _ 1 _ (Frame.trans first later) failed
  exact ⟨valid,expired,(tells rfl).waits 3 3 rfl⟩

end EditorLink
