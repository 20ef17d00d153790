import Diaporama.Proofs.Computation
import Diaporama.Render

/-!
# The course of a rendering

Whatever the machine answers, a job is carried out in one order: the program is asked for its
version, the output is looked for unless it may be overwritten, its directory is created, and the
job is run once. The first answer that is not as it should be ends the rendering, and nothing is
done behind it.
-/

namespace Diaporama

open Stateful

/-! ## A host that is watched -/

inductive Ask where
  | run (program : FilePath) (arguments : List String)
  | look (path : FilePath)
  | create (directory : FilePath)
  | read (path : FilePath)

inductive Deed where
  | ran (program : FilePath) (arguments : List String) (answer : Except RunFault Exit)
  | looked (path : FilePath) (isThere : Bool)
  | created (directory : FilePath) (answer : Except OsFault Unit)
  | read (path : FilePath) (answer : FileReading)

def Deed.ask : Deed → Ask
  | ran program arguments _ => .run program arguments
  | looked path _ => .look path
  | created directory _ => .create directory
  | read path _ => .read path

structure Watched (W : Type) where
  world : W
  deeds : List Deed

variable {W α β ε : Type}

def Watched.record (x : StateM W α) (deed : α → Deed) : StateM (Watched W) α := fun s =>
  let (a, w) := x.run s.world
  (a, ⟨w, s.deeds ++ [deed a]⟩)

variable [Host (StateM W)]

/-- What is asked of a watched world is answered by the world itself, and kept. -/
instance : Host (StateM (Watched W)) where
  run program arguments := Watched.record (Host.run program arguments) (.ran program arguments)
  pathExists path := Watched.record (Host.pathExists path) (.looked path)
  createDirectories directory :=
    Watched.record (Host.createDirectories directory) (.created directory)
  readFile path := Watched.record (Host.readFile path) (.read path)

/-! ## Moves -/

omit [Host (StateM W)] in
/-- A computation `x` comes from world `w` to `w'` with a result, and its watched form `y` does the
same with these deeds. -/
structure Move (x : ExceptT ε (StateM W) α) (y : ExceptT ε (StateM (Watched W)) α) (w : W)
    (deeds : List Deed) (result : Except ε α) (w' : W) : Prop where
  plain : outcome x w = (result, w')
  watched : ∀ before, outcome y ⟨w, before⟩ = (result, ⟨w', before ++ deeds⟩)

namespace Move

omit [Host (StateM W)]

variable {x : ExceptT ε (StateM W) α} {y : ExceptT ε (StateM (Watched W)) α}
  {f : α → ExceptT ε (StateM W) β} {g : α → ExceptT ε (StateM (Watched W)) β} {w w' w'' : W}
  {deeds deeds' : List Deed} {a : α} {e : ε} {result : Except ε β}

theorem pure (a : α) (w : W) :
    Move (Pure.pure a : ExceptT ε (StateM W) α) (Pure.pure a) w [] (.ok a) w where
  plain := rfl
  watched before := by
    rw [List.append_nil]
    rfl

theorem bind (hx : Move x y w deeds (.ok a) w') (hf : Move (f a) (g a) w' deeds' result w'') :
    Move (x >>= f) (y >>= g) w (deeds ++ deeds') result w'' where
  plain := by
    rw [outcome_bind, hx.plain]
    exact hf.plain
  watched before := by
    rw [outcome_bind, hx.watched, ← List.append_assoc]
    exact hf.watched (before ++ deeds)

theorem bind_error (hx : Move x y w deeds (.error e) w') :
    Move (x >>= f) (y >>= g) w deeds (.error e) w' where
  plain := by rw [outcome_bind, hx.plain]
  watched before := by rw [outcome_bind, hx.watched]

theorem of_ask (ask : StateM W α) (deed : α → Deed) (verdict : α → Except ε β) (w : W) :
    ∃ a w', Move (ExceptT.lift ask >>= fun a => MonadExcept.ofExcept (verdict a))
      (ExceptT.lift (Watched.record ask deed) >>= fun a => MonadExcept.ofExcept (verdict a))
      w [deed a] (verdict a) w' := by
  refine ⟨(ask.run w).1, (ask.run w).2, ?_, fun before => ?_⟩
  · rw [outcome_bind]
    exact outcome_ofExcept _ _
  · rw [outcome_bind]
    exact outcome_ofExcept _ _

end Move

/-- The directory that has to be there before a file is written, unless it is the current one. -/
def FilePath.directory? (p : FilePath) : Option FilePath :=
  p.parent?.filter fun directory => !directory.isEmpty

namespace Renderer

def succeeded : Except RunFault Exit → Bool
  | .ok ended => ended.status.isSuccess
  | .error _ => false

def probeVerdict (r : Renderer) (probe : Except RunFault Exit) : Except (Error Float) Unit :=
  if succeeded probe then .ok () else .error (.noProgram r.program)

def jobVerdict (r : Renderer) : Except RunFault Exit → Except (Error Float) Unit
  | .ok ended =>
    if ended.status.isSuccess then .ok ()
    else .error (.failed ended.status (Text.trim (Text.lossy ended.errors)))
  | .error fault => .error (.notRun r.program fault)

/-! ## The four steps -/

section

variable {m : Type → Type} [Monad m] [LawfulMonad m] [Host m] (r : Renderer)

theorem checkProgram_eq : (r.checkProgram : ExceptT (Error Float) m Unit) =
    ExceptT.lift (Host.run r.program versionArguments) >>= fun probe =>
      MonadExcept.ofExcept (r.probeVerdict probe) := by
  unfold checkProgram answers
  rw [liftM_bind, bind_assoc]
  refine bind_congr fun probe => ?_
  cases probe with
  | error fault =>
    rw [liftM_pure, pure_bind]
    rfl
  | ok ended =>
    rw [liftM_pure, pure_bind, probeVerdict, succeeded]
    cases ended.status.isSuccess <;> rfl

omit [LawfulMonad m] in
theorem checkOutput_eq (output : FilePath) :
    (r.checkOutput output : ExceptT (Error Float) m Unit) =
      if r.overwrite then pure ()
      else ExceptT.lift (Host.pathExists output) >>= fun isThere =>
        MonadExcept.ofExcept (if isThere then .error (.outputExists output) else .ok ()) := by
  unfold checkOutput
  split
  · rfl
  · refine bind_congr fun isThere => ?_
    cases isThere <;> rfl

omit [LawfulMonad m] in
theorem ensureParent_eq (output : FilePath) :
    (ensureParent output : ExceptT (Error Float) m Unit) =
      match output.directory? with
      | none => pure ()
      | some directory => ExceptT.lift (Host.createDirectories directory) >>= fun answer =>
        MonadExcept.ofExcept (answer.mapError (.noDirectory directory)) := by
  unfold ensureParent FilePath.directory?
  cases output.parent? with
  | none => rfl
  | some directory =>
    cases hEmpty : directory.isEmpty with
    | true => simp [hEmpty, Option.filter]
    | false =>
      simp only [hEmpty, Option.filter, Bool.not_false, if_true]
      refine bind_congr fun answer => ?_
      cases answer <;> rfl

omit [LawfulMonad m] in
theorem runJob_eq (j : Job Float) : (r.runJob j : ExceptT (Error Float) m Unit) =
    ExceptT.lift (Host.run r.program (r.arguments j)) >>= fun answer =>
      MonadExcept.ofExcept (r.jobVerdict answer) := by
  unfold runJob
  refine bind_congr fun answer => ?_
  cases answer with
  | error fault => rfl
  | ok ended =>
    simp only [jobVerdict]
    cases ended.status.isSuccess <;> rfl

end

section

variable (r : Renderer) (j : Job Float) (output : FilePath) (w : W)

/-- What is looked for, and not found, before the output is written. -/
def looks : List Deed :=
  if r.overwrite then [] else [.looked output false]

def creations : List Deed :=
  output.directory?.toList.map fun directory => .created directory (.ok ())

theorem move_checkProgram : ∃ probe w', Move r.checkProgram r.checkProgram w
    [.ran r.program versionArguments probe] (r.probeVerdict probe) w' := by
  rw [checkProgram_eq, checkProgram_eq]
  exact Move.of_ask _ _ r.probeVerdict w

theorem move_checkOutput :
    (∃ w', Move (r.checkOutput output) (r.checkOutput output) w (r.looks output) (.ok ()) w') ∨
      r.overwrite = false ∧ ∃ w', Move (r.checkOutput output) (r.checkOutput output) w
        [.looked output true] (.error (.outputExists output)) w' := by
  rw [checkOutput_eq, checkOutput_eq, looks]
  cases r.overwrite with
  | true => exact .inl ⟨w, .pure () w⟩
  | false =>
    obtain ⟨isThere, w', hMove⟩ := Move.of_ask (Host.pathExists output) (.looked output)
      (fun isThere => if isThere then .error (Error.outputExists output) else .ok ()) w
    cases isThere with
    | false => exact .inl ⟨w', hMove⟩
    | true => exact .inr ⟨rfl, w', hMove⟩

theorem move_ensureParent :
    (∃ w', Move (ensureParent output) (ensureParent output) w (creations output) (.ok ()) w') ∨
      ∃ directory fault w', output.directory? = some directory ∧
        Move (ensureParent output) (ensureParent output) w [.created directory (.error fault)]
          (.error (.noDirectory directory fault)) w' := by
  rw [ensureParent_eq, ensureParent_eq, creations]
  cases output.directory? with
  | none => exact .inl ⟨w, .pure () w⟩
  | some directory =>
    obtain ⟨answer, w', hMove⟩ := Move.of_ask (Host.createDirectories directory)
      (.created directory) (fun answer => answer.mapError (Error.noDirectory directory)) w
    cases answer with
    | ok _ => exact .inl ⟨w', hMove⟩
    | error fault => exact .inr ⟨directory, fault, w', rfl, hMove⟩

theorem move_runJob : ∃ answer w', Move (r.runJob j) (r.runJob j) w
    [.ran r.program (r.arguments j) answer] (r.jobVerdict answer) w' := by
  rw [runJob_eq, runJob_eq]
  exact Move.of_ask _ _ r.jobVerdict w

end

/-! ## The whole course -/

section

variable (r : Renderer) (j : Job Float)

/-- What is done before the job is run, when all of it goes well. -/
def preparations (probe : Except RunFault Exit) : List Deed :=
  .ran r.program versionArguments probe :: (r.looks j.output ++ creations j.output)

/-- The ways a rendering can go: what was done in order, and the path or the error it ends with. -/
inductive Course : List Deed → Except (ErrorKind × Error Float) FilePath → Prop
  | noProgram {probe : Except RunFault Exit} (hProbe : succeeded probe = false) :
      Course [.ran r.program versionArguments probe] (.error (.execution, .noProgram r.program))
  | outputExists {probe : Except RunFault Exit} (hProbe : succeeded probe = true)
      (hKeep : r.overwrite = false) :
      Course [.ran r.program versionArguments probe, .looked j.output true]
        (.error (.validation, .outputExists j.output))
  | noDirectory {probe : Except RunFault Exit} (hProbe : succeeded probe = true)
      {directory : FilePath} (hDirectory : j.output.directory? = some directory)
      (fault : OsFault) :
      Course (.ran r.program versionArguments probe ::
          (r.looks j.output ++ [.created directory (.error fault)]))
        (.error (.other, .noDirectory directory fault))
  | notRun {probe : Except RunFault Exit} (hProbe : succeeded probe = true) (fault : RunFault) :
      Course (r.preparations j probe ++ [.ran r.program (r.arguments j) (.error fault)])
        (.error (.execution, .notRun r.program fault))
  | failed {probe : Except RunFault Exit} (hProbe : succeeded probe = true) {ended : Exit}
      (hEnded : ended.status.isSuccess = false) :
      Course (r.preparations j probe ++ [.ran r.program (r.arguments j) (.ok ended)])
        (.error (.execution, .failed ended.status (Text.trim (Text.lossy ended.errors))))
  | done {probe : Except RunFault Exit} (hProbe : succeeded probe = true) {ended : Exit}
      (hEnded : ended.status.isSuccess = true) :
      Course (r.preparations j probe ++ [.ran r.program (r.arguments j) (.ok ended)])
        (.ok j.output)

theorem exists_move_execute (w : W) : ∃ deeds result w',
    Move (r.execute j) (r.execute j) w deeds result w' ∧
      r.Course j deeds (result.mapError fun e => (e.kind, e)) := by
  unfold execute
  obtain ⟨probe, w₁, hProgram⟩ := r.move_checkProgram w
  rw [probeVerdict] at hProgram
  cases hProbe : succeeded probe with
  | false =>
    rw [hProbe] at hProgram
    exact ⟨_, _, _, hProgram.bind_error, .noProgram hProbe⟩
  | true =>
    rw [hProbe] at hProgram
    obtain ⟨w₂, hOutput⟩ | ⟨hKeep, w₂, hOutput⟩ := r.move_checkOutput j.output w₁
    · obtain ⟨w₃, hParent⟩ | ⟨directory, fault, w₃, hDirectory, hParent⟩ :=
        move_ensureParent j.output w₂
      · obtain ⟨answer, w₄, hJob⟩ := r.move_runJob j w₃
        have hDeeds : r.preparations j probe ++ [.ran r.program (r.arguments j) answer] =
            [.ran r.program versionArguments probe] ++ (r.looks j.output ++
              (creations j.output ++ [.ran r.program (r.arguments j) answer])) := by
          simp [preparations]
        cases answer with
        | error fault =>
          refine ⟨_, _, _, hProgram.bind (hOutput.bind (hParent.bind hJob.bind_error)), ?_⟩
          rw [← hDeeds]
          exact .notRun hProbe fault
        | ok ended =>
          rw [jobVerdict] at hJob
          cases hEnded : ended.status.isSuccess with
          | false =>
            rw [hEnded] at hJob
            refine ⟨_, _, _, hProgram.bind (hOutput.bind (hParent.bind hJob.bind_error)), ?_⟩
            rw [← hDeeds]
            exact .failed hProbe hEnded
          | true =>
            rw [hEnded] at hJob
            have hReturn := hJob.bind (f := fun _ => Pure.pure j.output)
              (g := fun _ => Pure.pure j.output) (.pure j.output w₄)
            rw [List.append_nil] at hReturn
            refine ⟨_, _, _, hProgram.bind (hOutput.bind (hParent.bind hReturn)), ?_⟩
            rw [← hDeeds]
            exact .done hProbe hEnded
      · exact ⟨_, _, _, hProgram.bind (hOutput.bind hParent.bind_error),
          .noDirectory hProbe hDirectory fault⟩
    · exact ⟨_, _, _, hProgram.bind hOutput.bind_error, .outputExists hProbe hKeep⟩

def checks : List Ask :=
  .run r.program versionArguments :: ((if r.overwrite then [] else [.look j.output]) ++
    j.output.directory?.toList.map .create)

def plan : List Ask :=
  r.checks j ++ [.run r.program (r.arguments j)]

/-- A job's arguments begin with whether the output may be overwritten. -/
theorem arguments_ne_versionArguments : r.arguments j ≠ versionArguments := by
  intro hSame
  have hLength := congrArg List.length hSame
  simp [arguments, versionArguments] at hLength

theorem run_notMem_checks : .run r.program (r.arguments j) ∉ r.checks j := by
  intro hMem
  rw [checks, List.mem_cons, List.mem_append] at hMem
  obtain hProbe | hLook | hCreation := hMem
  · injection hProbe with _ hArguments
    exact r.arguments_ne_versionArguments j hArguments
  · split at hLook <;> simp at hLook
  · simp at hCreation

theorem map_ask_looks :
    (r.looks j.output).map Deed.ask = if r.overwrite then [] else [.look j.output] := by
  unfold looks
  split <;> rfl

theorem map_ask_preparations (probe : Except RunFault Exit) :
    (r.preparations j probe).map Deed.ask = r.checks j := by
  rw [preparations, List.map_cons, List.map_append, map_ask_looks, creations, List.map_map]
  rfl

variable {r j} {deeds : List Deed} {result : Except (ErrorKind × Error Float) FilePath}

/-- Either a check ended the rendering, or all of them went well and the job was run. -/
theorem Course.checked_or_ran (hCourse : r.Course j deeds result) :
    (deeds.map Deed.ask <+: r.checks j ∧ ∃ e, result = .error e) ∨
      ∃ probe answer, deeds = r.preparations j probe ++ [.ran r.program (r.arguments j) answer] ∧
        ∀ p, result = .ok p ↔ p = j.output ∧ succeeded answer = true := by
  cases hCourse with
  | noProgram hProbe => exact .inl ⟨⟨_, rfl⟩, _, rfl⟩
  | outputExists hProbe hKeep =>
    refine .inl ⟨?_, _, rfl⟩
    rw [checks, hKeep]
    exact ⟨_, rfl⟩
  | noDirectory hProbe hDirectory fault =>
    refine .inl ⟨?_, _, rfl⟩
    rw [checks, hDirectory, ← map_ask_looks, List.map_cons, List.map_append]
    exact List.prefix_rfl
  | notRun hProbe fault => exact .inr ⟨_, _, rfl, fun p => by simp [succeeded]⟩
  | failed hProbe hEnded => exact .inr ⟨_, _, rfl, fun p => by simp [succeeded, hEnded]⟩
  | done hProbe hEnded => exact .inr ⟨_, _, rfl, fun p => by simp [succeeded, hEnded, eq_comm]⟩

theorem Course.asked (hCourse : r.Course j deeds result) : deeds.map Deed.ask <+: r.plan j := by
  obtain ⟨hChecked, -⟩ | ⟨probe, answer, rfl, -⟩ := hCourse.checked_or_ran
  · exact hChecked.trans (List.prefix_append _ _)
  · rw [List.map_append, map_ask_preparations]
    exact List.prefix_rfl

/-- A rendering gives a path, that of the output, only if the job was run and ended well. -/
theorem Course.ok_iff (hCourse : r.Course j deeds result) (p : FilePath) :
    result = .ok p ↔ p = j.output ∧ ∃ answer,
      .ran r.program (r.arguments j) answer ∈ deeds ∧ succeeded answer = true := by
  obtain ⟨hChecked, e, rfl⟩ | ⟨probe, answer, rfl, hResult⟩ := hCourse.checked_or_ran
  · constructor
    · rintro ⟨⟩
    · rintro ⟨-, answer, hRan, -⟩
      have hAsked := List.mem_map_of_mem (f := Deed.ask) hRan
      exact absurd (hChecked.mem hAsked) (r.run_notMem_checks j)
  · rw [hResult]
    refine and_congr_right fun _ => ⟨fun hEnded => ⟨answer, by simp, hEnded⟩, ?_⟩
    rintro ⟨other, hRan, hEnded⟩
    rw [List.mem_append, List.mem_singleton] at hRan
    obtain hEarly | hLast := hRan
    · have hAsked := List.mem_map_of_mem (f := Deed.ask) hEarly
      rw [map_ask_preparations] at hAsked
      exact absurd hAsked (r.run_notMem_checks j)
    · injection hLast with _ _ hAnswer
      rwa [← hAnswer]

end

/-- A rendering asks in order and no further than its first fault, and being watched changes neither
its result nor the world it leaves. -/
theorem execute_in_order (r : Renderer) (j : Job Float) (w : W) :
    let (result, watched) := outcome (r.execute j) (⟨w, []⟩ : Watched W)
    outcome (r.execute j) w = (result, watched.world) ∧
      watched.deeds.map Deed.ask <+: r.plan j ∧
      r.Course j watched.deeds (result.mapError fun e => (e.kind, e)) ∧
      ∀ p, result = .ok p ↔ p = j.output ∧ ∃ answer,
        .ran r.program (r.arguments j) answer ∈ watched.deeds ∧ succeeded answer = true := by
  obtain ⟨deeds, result, w', hMove, hCourse⟩ := r.exists_move_execute j w
  rw [hMove.watched, List.nil_append]
  refine ⟨hMove.plain, hCourse.asked, hCourse, fun p => ?_⟩
  rw [← hCourse.ok_iff]
  cases result with
  | error e => exact ⟨nofun, nofun⟩
  | ok path => exact ⟨congrArg _, fun hPath => by cases hPath; rfl⟩

end Renderer

end Diaporama
