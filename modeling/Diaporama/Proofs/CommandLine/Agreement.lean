import Diaporama.Proofs.CommandLine.Brief
import Diaporama.Proofs.Slideshow.Job

/-!
# Both ways end alike

A job given as flags and the same job given as a request in a file end with the same status and
print the same: the same text where there is a job, nothing where there is none.
-/

namespace Diaporama.CommandLine

open Json (Value)

def Flags.ofRequest (path : FilePath) (config : Option FilePath) (format : Option OutputFormat) :
    Flags :=
  { Flags.none with request := some path, config := config, format := format }

/-- What a program that ran it can tell of a report: how it ended and what it printed. -/
def Report.ending (r : Report) : Nat × String :=
  (r.status, r.output)

namespace Attempt

variable {α β : Type}

@[simp] theorem result_ofTraced (fail : Error Float → Failure) (t : Traced Float α) :
    (ofTraced fail t).result = t.result.mapError fail := rfl

@[simp] theorem result_andThen (a : Attempt α) (f : α → Attempt β) :
    (a.andThen f).result = a.result.bind fun x => (f x).result := by
  unfold andThen
  cases a.result <;> rfl

end Attempt

theorem result_ofText (text : ByteArray) : (Request.ofText text).result =
    (Json.read Request.record.reader text).result.mapError (.unread .request) := rfl

/-- The job a request comes to, if there is a request and it comes to one. -/
def jobUnder (config : Config.Checked Float) (request : Except Failure (Request Float)) :
    Option (Job Float) :=
  (request.bind fun r => (Attempt.ofTraced Failure.ofError (r.assemble config)).result).toOption

theorem jobUnder_error (config : Config.Checked Float) (failure : Failure) :
    jobUnder config (.error failure) = none := rfl

theorem jobUnder_of_no_images (config : Config.Checked Float) {r : Request Float}
    (hImages : r.images = []) : jobUnder config (.ok r) = none := by
  have hPaths : r.checkPaths = .error .noImages := by
    simp [Request.checkPaths, hImages]
  change (Except.mapError Failure.ofError (r.assemble config).result).toOption = none
  rw [Request.result_assemble, hPaths]
  rfl

section

variable {W : Type} [Host (StateM W)] {f g : Flags} {w : W}

theorem ending_compile (hFormat : f.format = g.format)
    (hJob : ((compileJob f : StateM W _).run w).1.result.toOption =
      ((compileJob g : StateM W _).run w).1.result.toOption) :
    ((compile f : StateM W _).run w).1.ending = ((compile g : StateM W _).run w).1.ending := by
  unfold compile
  rw [hFormat]
  rcases hf : (compileJob f : StateM W _).run w with ⟨⟨log, result⟩, w'⟩
  rcases hg : (compileJob g : StateM W _).run w with ⟨⟨log', result'⟩, w''⟩
  rw [hf, hg] at hJob
  simp only [StateT.run_bind, hf, hg]
  cases result with
  | error failure =>
    cases result' with
    | error failure' => rfl
    | ok job' => cases hJob
  | ok job =>
    cases result' with
    | error failure' => cases hJob
    | ok job' =>
      cases hJob
      dsimp only [bind]
      cases formatted job (g.format.getD .shell) <;> rfl

/-- Behind the same configuration the job is settled by the request. -/
theorem job_compileJob (hConfig : f.config = g.config)
    (hJob : ∀ config,
      jobUnder config
          ((readRequest f : StateM W _).run ((readConfig f : StateM W _).run w).2).1.result =
        jobUnder config
          ((readRequest g : StateM W _).run ((readConfig f : StateM W _).run w).2).1.result) :
    ((compileJob f : StateM W _).run w).1.result.toOption =
      ((compileJob g : StateM W _).run w).1.result.toOption := by
  have hRead : (readConfig f : StateM W _) = readConfig g := by
    unfold readConfig
    rw [hConfig]
  unfold compileJob
  rw [← hRead]
  rcases hc : (readConfig f : StateM W _).run w with ⟨config, w'⟩
  rw [hc] at hJob
  simp only [StateT.run_bind, hc]
  cases config with
  | error failure => rfl
  | ok config =>
    change (((readRequest f : StateM W _).run w').1.andThen _).result.toOption =
      (((readRequest g : StateM W _).run w').1.andThen _).result.toOption
    rw [Attempt.result_andThen, Attempt.result_andThen]
    exact hJob config

theorem result_readRequest_flags (b : Brief) (config : Option FilePath)
    (format : Option OutputFormat) :
    ((readRequest (b.flags config format) : StateM W _).run w).1.result = .ok b.request := by
  change Except.ok (⟨(b.images.map FilePath.ofString).map .ofPath, _, _, _⟩ : Request Float) = _
  rw [b.settings_flags config format, List.map_map]
  rfl

/-- A file that holds a document of the brief is read as its request, if its pictures are there. -/
theorem result_readRequest_file {b : Brief} {v : Value} {text : ByteArray} {path : FilePath}
    (config : Option FilePath) (format : Option OutputFormat) (hDocument : b.IsDocument v)
    (hText : v.IsText text) (hFile : ((Host.readFile path : StateM W _).run w).1 = .bytes text) :
    ((readRequest (.ofRequest path config format) : StateM W _).run w).1.result = .ok b.request ∨
      b.images = [] ∧ ∃ failure,
        ((readRequest (.ofRequest path config format) : StateM W _).run w).1.result =
          .error failure := by
  rcases hLoad : (Host.readFile path : StateM W _).run w with ⟨reading, w'⟩
  rw [hLoad] at hFile
  cases (show reading = .bytes text from hFile)
  have hLoaded : ((Request.load path : StateM W _).run w).1 = Request.ofText text := by
    unfold Request.load
    simp only [StateT.run_bind, hLoad]
    rfl
  change (Attempt.ofTraced _ ((Request.load path : StateM W _).run w).1).result = _ ∨
    _ ∧ ∃ failure, (Attempt.ofTraced _ ((Request.load path : StateM W _).run w).1).result = _
  rw [Attempt.result_ofTraced, hLoaded, result_ofText]
  rcases Brief.result_read hDocument hText with hRead | ⟨hImages, hRead⟩
  · rw [hRead]
    exact .inl rfl
  · rw [hRead]
    exact .inr ⟨hImages, _, rfl⟩

/-- Flags and a request for the same brief are compiled alike, also where no command line delivers
the flags because the path of the soundtrack or the output is empty. -/
theorem compile_agrees (b : Brief) (path : FilePath) (config : Option FilePath)
    (format : Option OutputFormat) {v : Value} {text : ByteArray} (hDocument : b.IsDocument v)
    (hText : v.IsText text)
    (hFile : ((Host.readFile path : StateM W _).run
      ((readConfig (b.flags config format) : StateM W _).run w).2).1 = .bytes text) :
    ((compile (b.flags config format) : StateM W _).run w).1.ending =
      ((compile (.ofRequest path config format) : StateM W _).run w).1.ending := by
  refine ending_compile rfl (job_compileJob rfl fun config' => ?_)
  rw [result_readRequest_flags]
  rcases result_readRequest_file config format hDocument hText hFile with
    hResult | ⟨hImages, failure, hResult⟩
  · rw [hResult]
  · -- the file fails when it is read and the flags when they are assembled
    rw [hResult, jobUnder_error]
    exact jobUnder_of_no_images config' (by simp [Brief.request, hImages])

/-- Flags and a request for the same brief end alike, under any configuration and in any format; the
file is read once the configuration is. -/
theorem run_agrees (b : Brief) (path : FilePath) (config : Option FilePath)
    (format : Option OutputFormat) {byFlags byRequest : List ByteArray}
    (hFlags : parse? byFlags = some (.run .compile (b.flags config format)))
    (hRequest : parse? byRequest = some (.run .compile (.ofRequest path config format)))
    {v : Value} {text : ByteArray} (hDocument : b.IsDocument v) (hText : v.IsText text)
    (hFile : ((Host.readFile path : StateM W _).run
      ((readConfig (b.flags config format) : StateM W _).run w).2).1 = .bytes text) :
    ((run byFlags : StateM W _).run w).1.ending =
      ((run byRequest : StateM W _).run w).1.ending := by
  unfold run
  rw [hFlags, hRequest]
  exact compile_agrees b path config format hDocument hText hFile

end

structure Shelf where
  file : FilePath → FileReading

instance : Host (StateM Shelf) where
  run _ _ := return .error (.notStarted .notFound)
  pathExists p := return match (← get).file p with
    | .unopened _ => false
    | _ => true
  createDirectories _ := return .error .notPermitted
  readFile p := return (← get).file p

/-- The members stand in another order, one has its second name, and a path is written with an
escape. -/
theorem run_agrees_reordered :
    let text := ("\x7b\"output\":\"o\", \"settings\":\x7b\"duration\":2\x7d, " ++
      "\"images\":[\x7b\"path\":\"p\\/a\"\x7d]\x7d").toUTF8
    let shelf : Shelf := ⟨fun _ => .bytes text⟩
    ((run (["compile", "--image=p/a", "--duration", "2", "--out=o"].map String.toUTF8) :
        StateM Shelf _).run shelf).1.ending =
      ((run (["compile", "--request=job.json"].map String.toUTF8) :
        StateM Shelf _).run shelf).1.ending := by
  intro text shelf
  have hBytes : text.toList =
    [123, 34, 111, 117, 116, 112, 117, 116, 34, 58, 34, 111, 34, 44, 32, 34, 115, 101, 116, 116,
      105, 110, 103, 115, 34, 58, 123, 34, 100, 117, 114, 97, 116, 105, 111, 110, 34, 58, 50, 125,
      44, 32, 34, 105, 109, 97, 103, 101, 115, 34, 58, 91, 123, 34, 112, 97, 116, 104, 34, 58, 34,
      112, 92, 47, 97, 34, 125, 93, 125] := by
    decide +kernel
  let b : Brief := ⟨["p/a"], none, none, some 2, none, "o"⟩
  let settings : Value := .object [("duration", .real 2)]
  let document : Value := .object [("output", .string "o"), ("settings", settings),
    ("images", .list [.object [("path", .string "p/a")]])]
  have hSettings : b.IsSettings settings :=
    ⟨"transition", by simp, "duration", by simp, "aspectRatio", by simp, _, rfl, .refl _⟩
  have hDocument : b.IsDocument document := by
    refine ⟨some ["p/a"], some settings, rfl, ?_, nofun, _, rfl, ?_⟩
    · rintro _ ⟨⟩
      exact hSettings
    · exact (List.reverse_perm _).symm
  have hText : document.IsText text := by
    unfold Value.IsText
    rw [hBytes]
    -- mark by mark: a name, its colon, its value, and the comma before the next one
    exact ⟨_, ⟨_, ⟨_, rfl, rfl⟩,
      _, _, _, _, rfl, ⟨_, ⟨_, rfl, rfl⟩, rfl⟩, ⟨_, rfl, rfl⟩, ⟨_, ⟨_, rfl, rfl⟩, rfl⟩,
      _, _, _, _, ⟨_, rfl, rfl⟩, ⟨_, ⟨_, rfl, rfl⟩, rfl⟩, ⟨_, rfl, rfl⟩,
        ⟨_, ⟨_, rfl, rfl⟩, _, _, _, _, rfl, ⟨_, ⟨_, rfl, rfl⟩, rfl⟩, ⟨_, rfl, rfl⟩,
          ⟨.natural 2, rfl, _, .inl rfl, rfl⟩, ⟨_, rfl, rfl⟩⟩,
      _, _, _, _, ⟨_, rfl, rfl⟩, ⟨_, ⟨_, rfl, rfl⟩, rfl⟩, ⟨_, rfl, rfl⟩,
        ⟨_, ⟨_, rfl, rfl⟩, _, _, rfl,
          ⟨_, ⟨_, rfl, rfl⟩, _, _, _, _, rfl, ⟨_, ⟨_, rfl, rfl⟩, rfl⟩, ⟨_, rfl, rfl⟩,
            ⟨_, ⟨_, rfl, rfl⟩, rfl⟩, ⟨_, rfl, rfl⟩⟩,
          ⟨_, rfl, rfl⟩⟩,
      ⟨_, rfl, rfl⟩⟩, rfl⟩
  exact run_agrees b (.ofString "job.json") none none (by with_unfolding_all rfl)
    (by with_unfolding_all rfl) hDocument hText rfl

end Diaporama.CommandLine
