import CachingProxy.Disk.Queue
import CachingProxy.Proofs.Disk.Writing

/-!
# The writer at its desk

The writer takes a job when its hands are free and works it off call by call, so that other parties
may come in between any two of its calls.  Left alone, it finishes a job as `Archive.finish` does
(`Desk.finish_undisturbed`).
-/

set_option autoImplicit false

namespace CachingProxy.Disk

/-- What happens around a queue. -/
inductive Note where
  | queued (route : Route)
  | dropped (route : Route)
  | began (ticket : Nat)
  | sent (ticket : Nat)
  | returned (ticket : Nat)
  | processed (route : Route) (result : Except SystemError Unit)
  | acknowledged (ticket : Nat)
  deriving DecidableEq

structure Desk where
  archive : Archive
  stage : Stage := .look
  unsynced : List Path := []

namespace Desk

def medium (desk : Desk) : Medium := ⟨desk.archive.tree, desk.unsynced⟩

/-- The next step of the writer. -/
def work (desk : Desk) (luck : Luck) : Desk × Option Note :=
  match desk.archive.hand, desk.stage with
  | none, _ => ({ desk with archive := desk.archive.take, stage := .look }, none)
  | some (.flush ticket), _ =>
      ({ desk with archive := desk.archive.finish }, some (.acknowledged ticket))
  | some (.write route), .returned result =>
      ({ desk with archive := desk.archive.countWrite result, stage := .look },
        some (.processed route result))
  | some (.write route), stage =>
      let now := desk.medium.advance route.hash route.content stage luck
      ({ archive := { desk.archive with tree := now.1.tree }
         stage := now.2
         unsynced := now.1.unsynced }, none)

inductive Works (desk : Desk) : Desk × Option Note → Prop where
  | took (job : Job) (rest : List Job) (free : desk.archive.hand = none)
      (waiting : desk.archive.waiting = job :: rest) :
      Works desk
        ({ desk with
          archive := { desk.archive with hand := some job, waiting := rest }
          stage := .look }, none)
  | rested (free : desk.archive.hand = none) (waiting : desk.archive.waiting = []) :
      Works desk ({ desk with stage := .look }, none)
  | acknowledged (ticket : Nat) (held : desk.archive.hand = some (.flush ticket)) :
      Works desk
        ({ desk with archive := { desk.archive with
            hand := none, answered := desk.archive.answered ++ [ticket] } },
          some (.acknowledged ticket))
  | processed (route : Route) (result : Except SystemError Unit)
      (held : desk.archive.hand = some (.write route)) (ended : desk.stage = .returned result) :
      Works desk
        ({ desk with archive := desk.archive.countWrite result, stage := .look },
          some (.processed route result))
  | advanced (route : Route) (held : desk.archive.hand = some (.write route))
      (next : Medium × Stage) (rule : Advances route.content desk.medium desk.stage next) :
      Works desk
        ({ archive := { desk.archive with tree := next.1.tree }
           stage := next.2
           unsynced := next.1.unsynced }, none)

theorem work_works (desk : Desk) (luck : Luck) : Works desk (desk.work luck) := by
  rw [work]
  split
  · rename_i free
    rw [Archive.take, free]
    cases waiting : desk.archive.waiting with
    | nil => exact .rested free waiting
    | cons job rest => exact .took job rest free waiting
  · rename_i ticket held
    rw [Archive.finish, held]
    exact .acknowledged ticket held
  · rename_i route result held ended
    exact .processed route result held ended
  · rename_i route held _
    exact .advanced route held _ (advance_advances _ _ _ _)

/-! ## Left alone -/

def toil (desk : Desk) (lucks : List Luck) : Desk :=
  lucks.foldl (fun desk luck => (desk.work luck).1) desk

theorem toil_cons (desk : Desk) (luck : Luck) (rest : List Luck) :
    desk.toil (luck :: rest) = (desk.work luck).1.toil rest := rfl

theorem work_returned {desk : Desk} {route : Route} {result : Except SystemError Unit}
    (held : desk.archive.hand = some (.write route)) (ended : desk.stage = .returned result)
    (luck : Luck) : (desk.work luck).1.archive = desk.archive.countWrite result := by
  rw [work, held, ended]

theorem work_unreturned {desk : Desk} {route : Route}
    (held : desk.archive.hand = some (.write route))
    (unended : ∀ result, desk.stage ≠ .returned result) (luck : Luck) :
    (desk.work luck).1 =
      let now := desk.medium.advance route.hash route.content desk.stage luck
      { archive := { desk.archive with tree := now.1.tree }
        stage := now.2
        unsynced := now.1.unsynced } := by
  rw [work, held]
  cases ended : desk.stage with
  | returned result => exact absurd ended (unended result)
  | _ => rfl

theorem toil_write {desk : Desk} {route : Route} {result : Except SystemError Unit}
    (held : desk.archive.hand = some (.write route)) (lucks : List Luck) (last : Luck)
    (ends : (desk.medium.proceed route.hash route.content desk.stage lucks).2 =
      .returned result) :
    ∃ taken, (desk.toil (lucks.take taken ++ [last])).archive =
      { desk.archive with
        tree := (desk.medium.proceed route.hash route.content desk.stage lucks).1.tree }.countWrite
          result := by
  induction lucks generalizing desk with
  | nil => exact ⟨0, work_returned held ends last⟩
  | cons luck rest ih =>
      by_cases ended : ∃ early, desk.stage = .returned early
      · obtain ⟨early, ended⟩ := ended
        rw [ended, Medium.proceed_returned] at ends ⊢
        obtain rfl := Stage.returned.inj ends
        exact ⟨0, work_returned held ended last⟩
      · have next := work_unreturned held (not_exists.mp ended) luck
        rw [Medium.proceed_cons] at ends ⊢
        have kept : (desk.work luck).1.archive.hand = some (.write route) := by
          rw [next]
          exact held
        obtain ⟨taken, done⟩ := ih kept (by rw [next]; exact ends)
        refine ⟨taken + 1, ?_⟩
        rw [List.take_succ_cons, List.cons_append, toil_cons, done, next]
        rfl

/-- A write that is left alone is finished as in one step. -/
theorem finish_undisturbed {desk : Desk} {route : Route}
    (held : desk.archive.hand = some (.write route)) (begun : desk.stage = .look) :
    ∃ steps, (desk.toil (List.replicate steps (.works route.content.length))).archive =
      desk.archive.finish := by
  have smooth := desk.medium.write_undisturbed route.hash route.content
  rw [Medium.write, ← begun] at smooth
  obtain ⟨taken, done⟩ := toil_write held _ (.works route.content.length) smooth.2
  rw [List.take_replicate, ← List.replicate_succ', smooth.1] at done
  refine ⟨_, done.trans ?_⟩
  rw [Archive.finish, held]
  simp only [medium, held]

end Desk

end CachingProxy.Disk
