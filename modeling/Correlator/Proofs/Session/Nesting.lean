import Correlator.Proofs.Session.Parallel

/-!
Contract: the program of a callback, and its operations asked for by the user one after the other.

Owns: how the user names what a program calls its own future, and that the program does what the user's
operations do, in this order, as long as nothing breaks off.

Does not own: the completion that comes before (`Correlator.Proofs.Session.Deferral`).
-/

set_option autoImplicit false

namespace Correlator.Session

/-! ### The own future by its number -/

/-- The own future of a callback by the number under which the user has it. -/
def FutureRef.located (position : Nat) : FutureRef → FutureRef
  | .recorded index => .recorded index
  | .own => .recorded position

def Target.located (position : Nat) : Target → Target
  | .number sequence => .number sequence
  | .future reference => .future (reference.located position)

/-- The operation as the user asks for it. The programs in it stay as they are: what is their own is not
what is the operation's own. -/
def Op.located (position : Nat) : Op → Op
  | .complete client target response => .complete client (target.located position) response
  | .cancel client reference => .cancel client (reference.located position)
  | .isPending client target => .isPending client (target.located position)
  | .future reference => .future (reference.located position)
  | .cloneFuture reference => .cloneFuture (reference.located position)
  | .same left right => .same (left.located position) (right.located position)
  | .get reference => .get (reference.located position)
  | .getWithin reference timeout => .getWithin (reference.located position) timeout
  | .poll reference waker => .poll (reference.located position) waker
  | .resolveDirect reference value callback =>
    .resolveDirect (reference.located position) value callback
  | .readers client reference count response =>
    .readers client (reference.located position) count response
  | .race client reference threads response =>
    .race client (reference.located position) threads response
  | op => op

namespace Machine

section Located

variable {machine : Machine} {position : Nat} {future : Future}

private theorem withFuture_located (held : machine.session.futures[position]? = some future)
    (reference : FutureRef) (body : Future → Result) :
    machine.withFuture (some future) reference body
      = machine.withFuture none (reference.located position) body := by
  cases reference with
  | recorded index => rfl
  | own =>
    unfold withFuture FutureRef.located
    dsimp only
    rw [held]

private theorem withTarget_located (held : machine.session.futures[position]? = some future)
    (target : Target) (body : Sequence → Result) :
    machine.withTarget (some future) target body
      = machine.withTarget none (target.located position) body := by
  cases target with
  | number sequence => rfl
  | future reference => exact withFuture_located held reference _

/-- A callback's operation does what the same operation of the user does. -/
theorem perform_located (held : machine.session.futures[position]? = some future) (op : Op) :
    machine.perform (some future) op = machine.perform none (op.located position) := by
  cases op with
  | complete client target response => exact withTarget_located held target _
  | isPending client target => exact withTarget_located held target _
  | cancel client reference | future reference | cloneFuture reference | get reference =>
    exact withFuture_located held reference _
  | getWithin reference timeout => exact withFuture_located held reference _
  | poll reference waker => exact withFuture_located held reference _
  | resolveDirect reference value callback => exact withFuture_located held reference _
  | readers client reference readers response => exact withFuture_located held reference _
  | race client reference threads response => exact withFuture_located held reference _
  | same left right =>
    refine (withFuture_located held left _).trans (congrArg (machine.withFuture none _) ?_)
    funext found
    exact withFuture_located held right _
  | _ => rfl

end Located

end Machine

/-! ### Programs -/

/-- The trail of a program, by the reports on its operations when they are asked for by the user. -/
def nestings : Program → List Report → Trail
  | op :: program, report :: reports =>
    report.trail ++ .nested op report.reply :: nestings program reports
  | _, _ => []

namespace Machine

variable {session : Session} {position : Nat} {future : Future} {op : Op} {rest : List Task}
  {reply : Reply}

/-- The machine of a callback that is about to do an operation is alike to the machine of a user that
asks for it. -/
private theorem alike_inside (session : Session) (op : Op) (rest : List Task) (reply : Reply) :
    Alike unmuted session.futures (.report op :: rest)
      { session, agenda := [.perform (op.located position) none] }
      { session, agenda := .perform (op.located position) none :: .report op :: rest, reply } :=
  ⟨⟨(mute_unmuted session).symm, rfl, rfl, List.prefix_rfl, rfl, rfl, rfl⟩, .inr rfl⟩

private theorem advance?_inside (held : session.futures[position]? = some future) (op : Op)
    (rest : List Task) (reply : Reply) :
    Machine.advance?
        { session, agenda := .perform op (some future) :: .report op :: rest, reply }
      = Machine.advance?
        { session, agenda := .perform (op.located position) none :: .report op :: rest, reply } := by
  have located : Machine.perform { session, agenda := .report op :: rest, reply } (some future) op
      = Machine.perform { session, agenda := .report op :: rest, reply } none
        (op.located position) := perform_located held op
  rw [advance?_of_agenda rfl, advance?_of_agenda rfl]
  unfold carryOut
  dsimp only
  rw [located]

private theorem runs_report (session : Session) (op : Op) (rest : List Task) (reply : Reply) :
    Machine.Runs { session, agenda := .report op :: rest, reply } ([.nested op reply] ++ [])
      { session, agenda := rest, reply } :=
  .of_carryOut rfl rfl (.here _)

/-- An operation of a program, done and reported. -/
private theorem runs_inside (held : session.futures[position]? = some future) {report : Report}
    (performs : session.Performs (op.located position) report)
    (whole : report.reply.isBroken = false) :
    Machine.Runs { session, agenda := .perform op (some future) :: .report op :: rest, reply }
        (report.trail ++ [.nested op report.reply])
        { session := report.session, agenda := rest, reply := report.reply }
      ∧ session.futures <+: report.session.futures := by
  obtain ⟨finish, ⟨runs, idle⟩, reply_eq, session_eq⟩ := performs_iff.mp performs
  obtain ⟨last, inside, alike | broken⟩ := (alike_inside session op rest reply).runs runs
  · have last_eq := alike.eq_of_idle idle
    rw [reply_eq, session_eq] at last_eq
    have grown := alike.known
    rw [session_eq] at grown
    refine ⟨?_, grown⟩
    subst last_eq
    have begun := inside.of_advance?_eq (fun same => by simp at same)
      (advance?_inside held op rest reply)
    exact begun.trans (runs_report _ op rest _)
  · have broke := broken.broke
    rw [reply_eq, whole] at broke
    cases broke

/-- The other way round: what an operation of a program does, the user's operation would do. -/
private theorem finishes_inside (held : session.futures[position]? = some future) {more : Trail}
    {last : Machine}
    (finishes : Machine.Finishes
      { session, agenda := .perform op (some future) :: .report op :: rest, reply } more last)
    (whole : last.reply.isBroken = false) :
    ∃ report later, session.Performs (op.located position) report
      ∧ report.reply.isBroken = false ∧ session.futures <+: report.session.futures
      ∧ more = report.trail ++ .nested op report.reply :: later
      ∧ Machine.Finishes { session := report.session, agenda := rest, reply := report.reply } later
        last := by
  have located : Machine.Finishes
      { session, agenda := .perform (op.located position) none :: .report op :: rest, reply } more
      last := by
    refine ⟨finishes.1.of_advance?_eq ?_ (advance?_inside held op rest reply).symm, finishes.2⟩
    intro same
    have idle := finishes.2
    rw [← same] at idle
    cases idle
  obtain ⟨trail, finish, middle, later, own, split, alike, onward⟩ :=
    (alike_inside session op rest reply).finishes located whole
  rw [alike.eq_of_idle own.2] at onward
  obtain ⟨remaining, reported, ends⟩ := onward.rest (advance?_of_agenda rfl)
  refine ⟨⟨finish.reply, trail, finish.session⟩, remaining,
    performs_iff.mpr ⟨finish, own, rfl, rfl⟩, alike.whole, alike.known, ?_, ends⟩
  rw [split, reported]
  rfl

private theorem held_later {futures later : List Future} (grown : futures <+: later)
    (held : futures[position]? = some future) : later[position]? = some future := by
  obtain ⟨more, rfl⟩ := grown
  rw [List.getElem?_append_left (List.getElem?_eq_some_iff.mp held).1]
  exact held

/-- A program does what the user's operations do, in the same order. -/
theorem runs_program {program : Program} {reports : List Report} {final : Session}
    (performs : session.PerformsAll (program.map (Op.located position)) reports final)
    (held : session.futures[position]? = some future)
    (whole : ∀ report ∈ reports, report.reply.isBroken = false) (rest : List Task) (reply : Reply) :
    ∃ last, Machine.Runs { session, agenda := tasks program (some future) ++ rest, reply }
      (nestings program reports) { session := final, agenda := rest, reply := last } := by
  induction program generalizing session reports reply with
  | nil =>
    cases performs
    exact ⟨reply, .here _⟩
  | cons op program inductionHypothesis =>
    cases performs with
    | @cons _ _ _ _ report reports first later =>
      have begun : Machine.Runs
          { session, agenda := tasks (op :: program) (some future) ++ rest, reply }
          (report.trail ++ [.nested op report.reply])
          { session := report.session, agenda := tasks program (some future) ++ rest,
            reply := report.reply }
        ∧ session.futures <+: report.session.futures :=
        runs_inside held first (whole report List.mem_cons_self)
      obtain ⟨last, onward⟩ := inductionHypothesis later (held_later begun.2 held)
        (fun other member => whole other (List.mem_cons_of_mem _ member)) report.reply
      have both := begun.1.trans onward
      rw [List.append_assoc] at both
      exact ⟨last, both⟩

/-- The other way round: what a program does, the user's operations would do. -/
theorem finishes_program {program : Program} (held : session.futures[position]? = some future)
    {more : Trail} {last : Machine}
    (finishes : Machine.Finishes
      { session, agenda := tasks program (some future) ++ rest, reply } more last)
    (whole : last.reply.isBroken = false) :
    ∃ reports final answer later,
      session.PerformsAll (program.map (Op.located position)) reports final
      ∧ (∀ report ∈ reports, report.reply.isBroken = false)
      ∧ more = nestings program reports ++ later
      ∧ Machine.Finishes { session := final, agenda := rest, reply := answer } later last := by
  induction program generalizing session reply more with
  | nil => exact ⟨[], session, reply, more, .nil session, by simp, rfl, finishes⟩
  | cons op program inductionHypothesis =>
    obtain ⟨report, remaining, first, unbroken, grown, split, onward⟩ :=
      finishes_inside held finishes whole
    obtain ⟨reports, final, answer, later, performs, allWhole, reported, ends⟩ :=
      inductionHypothesis (held_later grown held) onward
    refine ⟨report :: reports, final, answer, later, .cons first performs, ?_, ?_, ends⟩
    · exact List.forall_mem_cons.mpr ⟨unbroken, allWhole⟩
    · rw [split, reported, ← List.cons_append, ← List.append_assoc]
      rfl

end Machine

end Correlator.Session
