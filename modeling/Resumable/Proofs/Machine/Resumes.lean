import Resumable.Proofs.Eval.Arguments
import Resumable.Proofs.Lowered
import Resumable.Proofs.Machine.Turns

/-! Resumes of a machine, one after the other. Whatever a region needs stands in its slot when the
region begins. -/

namespace Resumable

namespace Instance

def frame (inst : Instance) : Frame := ⟨inst.words, inst.references⟩

def code (inst : Instance) : List Emitted :=
  ((inst.state.region?.bind inst.machine.state?).map StateBody.statements).getD []

def activation (inst : Instance) : Activation :=
  { session := { env := (inst.state.region?.map inst.entryEnv).getD .initial }
    words := inst.words
    references := inst.references }

def course (inst : Instance) : Course :=
  Emitted.courseAll inst.machine.slots inst.code inst.activation

/-- An instance behind one more resume, which has left it in its state. -/
def after (inst : Instance) (frame : Frame) : Instance :=
  { inst with words := frame.words, references := frame.references, resumes := inst.resumes + 1 }

/-- What a resume answers and leaves behind a course. -/
def ended (inst : Instance) (id : RegionId) (course : Course) :
    Except Failure (Option Value) × Instance :=
  match course.result, course.after.next with
  | .error failure, _ => (.error failure, inst.after course.after.frame)
  | .ok _, none => (.error { fault := .run (.noNextState inst.machine.name id) },
      inst.after course.after.frame)
  | .ok _, some next =>
    (.ok course.after.result, { inst.after course.after.frame with state := next })

variable {inst : Instance} {id : RegionId} {state : StateBody}

theorem resume_course (resumes : inst.state = .region id)
    (found : inst.machine.state? id = some state) (allowed : inst.resumes < inst.maxResumes) :
    inst.resume = inst.ended id inst.course := by
  obtain ⟨machine, args, _, words, references, count, limit⟩ := inst
  obtain rfl := resumes
  have within : ¬ limit < count + 1 := Nat.not_lt_of_le allowed
  have code : Instance.code ⟨machine, args, .region id, words, references, count, limit⟩ =
      state.statements := by simp [Instance.code, Target.region?, found]
  rw [course, code, resume]
  simp only [within, if_false, found]
  rw [runState, ← Emitted.courseAll_ends]
  rfl

theorem resume_complete (complete : inst.state = .complete) :
    inst.resume = (.error { fault := .run (.completed inst.machine.name) }, inst) := by
  rw [resume, complete]

theorem resume_beyond (resumes : inst.state = .region id)
    (beyond : ¬ inst.resumes < inst.maxResumes) :
    inst.resume = (.error { fault := .run (.resumeLimit inst.machine.name inst.maxResumes) },
      { inst with resumes := inst.resumes + 1 }) := by
  rw [resume, resumes]
  dsimp only
  rw [if_pos (Nat.lt_succ_of_le (Nat.not_lt.mp beyond))]

theorem resume_counted (resumes : inst.state = .region id) :
    inst.resume.2.resumes = inst.resumes + 1 ∧ inst.resume.2.maxResumes = inst.maxResumes := by
  rw [resume, resumes]
  dsimp only
  split
  · exact ⟨rfl, rfl⟩
  · split
    · exact ⟨rfl, rfl⟩
    · rw [runState]
      dsimp only
      split
      split <;> exact ⟨rfl, rfl⟩

theorem start_machine {machine : Machine} {args : List Value} {settings : Settings}
    (started : start machine args settings = .ok inst) : inst.machine = machine := by
  obtain ⟨_, _, done⟩ := ok_bind started
  cases done
  rfl

theorem resume_machine (inst : Instance) : inst.resume.2.machine = inst.machine := by
  rw [resume]
  split
  · rfl
  · dsimp only
    split
    · rfl
    · split
      · rfl
      · rw [runState]
        dsimp only
        split
        split <;> rfl

theorem allowed_of_resume {value : Option Value} {next : Instance}
    (done : inst.resume = (.ok value, next)) : inst.resumes < inst.maxResumes := by
  rw [resume] at done
  split at done
  · cases done
  · dsimp only at done
    split at done
    · cases done
    · rename_i within
      exact Nat.not_lt.mp within

theorem resume_turn {events : List Event} {course : Course} {turn : Turn}
    (resumes : inst.state = .region id) (found : inst.machine.state? id = some state)
    (allowed : inst.resumes < inst.maxResumes) (comes : course.ComesTo turn)
    (same : inst.course = course.behind events) :
    inst.resume = match turn.result with
      | .error failure => (.error failure, inst.after turn.frame)
      | .ok (value, next) => (.ok value, { inst.after turn.frame with state := next }) := by
  rw [resume_course resumes found allowed, same, ended]
  simp only [Course.behind_result, Course.behind_after, comes.frame]
  cases result : turn.result with
  | error failure => simp only [comes.failed failure result]
  | ok answer =>
      obtain ⟨value, next⟩ := answer
      obtain ⟨left, answers, goes⟩ := comes.done value next result
      simp only [left, goes, answers]

end Instance
end Resumable
