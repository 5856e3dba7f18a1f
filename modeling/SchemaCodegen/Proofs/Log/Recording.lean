import SchemaCodegen.Proofs.Log.Ancestry

/-!
# What a run of the log writes

Parts of the program configure the log, ask for loggers and log records, in any
order.  From the first configuration on, the channel has one handler, whose threshold
is that of the latest configuration.  So a record that comes to the channel is
written once if its level reaches the threshold, and not at all otherwise.
-/

namespace SchemaCodegen
namespace Log

/-- What a part of the program does with the log. -/
inductive Step where
  /-- It sets up the channel for a verbose or a quiet run. -/
  | configure (verbose : Bool)
  /-- It asks for a logger. -/
  | ask (asked : Option String)
  /-- It asks for a logger and logs a record with it. -/
  | log (asked : Option String) (record : Record)
deriving DecidableEq, Repr

namespace Step

/-- How a step configures the channel, if it does. -/
def verbosity? : Step → Option Bool
  | .configure verbose => some verbose
  | .ask _ => none
  | .log _ _ => none

end Step

/-- How the channel is configured last, where it was configured before the steps. -/
def latestVerbosity (verbose : Bool) (steps : List Step) : Bool :=
  (steps.filterMap Step.verbosity?).getLastD verbose

theorem latestVerbosity_cons
    (verbose : Bool)
    (first : Step)
    (steps : List Step) :
    latestVerbosity verbose (first :: steps) =
      latestVerbosity (first.verbosity?.getD verbose) steps := by
  unfold latestVerbosity
  cases first with
  | configure verbose =>
      simp only [Step.verbosity?, List.filterMap_cons, List.getLastD_cons, Option.getD_some]
  | ask | log => rfl

/-! ## The channel -/

namespace Channel

/-- The channel of the latest configuration. -/
def configuredFor (verbose : Bool) : Channel where
  threshold := thresholdFor verbose
  propagates := false
  handlers := [⟨thresholdFor verbose⟩]

/-- Configuring leaves nothing of what was configured before. -/
theorem configure_eq_configuredFor
    (channel : Channel)
    (verbose : Bool) :
    channel.configure verbose = configuredFor verbose :=
  rfl

/-- The two thresholds agree, so that the handler accepts what the channel hands to it. -/
theorem configuredFor_write
    (verbose : Bool)
    (record : Record) :
    (configuredFor verbose).write record =
      if record.level.reaches (thresholdFor verbose) then [record.text] else [] := by
  cases reached : record.level.reaches (thresholdFor verbose) with
  | true => simp [write, configuredFor, reached]
  | false => simp [write, configuredFor, reached]

end Channel

/-! ## The steps -/

namespace Hierarchy

/-- Logs a record with the logger of a name: the loggers then, and what is written. -/
def log
    (hierarchy : Hierarchy)
    (asked : Option String)
    (record : Record) :
    Hierarchy × List Text :=
  let loggers := hierarchy.add (loggerName asked)
  (loggers, loggers.write (loggerName asked) record)

/-- The loggers after a step. -/
def step (hierarchy : Hierarchy) : Step → Hierarchy
  | .configure verbose => hierarchy.configure verbose
  | .ask asked => hierarchy.add (loggerName asked)
  | .log asked record => (hierarchy.log asked record).1

/-- The loggers after some steps. -/
def run (hierarchy : Hierarchy) (steps : List Step) : Hierarchy :=
  steps.foldl step hierarchy

variable {hierarchy : Hierarchy}

@[simp] theorem add_channel
    (hierarchy : Hierarchy)
    (name : String) :
    (hierarchy.add name).channel = hierarchy.channel := by
  unfold add
  split <;> rfl

/-- Only a configuration changes the channel, and it leaves nothing of the one before. -/
theorem step_channel
    (hierarchy : Hierarchy)
    (first : Step) :
    (hierarchy.step first).channel =
      (first.verbosity?.map Channel.configuredFor).getD hierarchy.channel := by
  cases first with
  | configure verbose => rfl
  | ask asked => exact hierarchy.add_channel _
  | log asked record => exact hierarchy.add_channel _

/-- Once configured, the channel is that of the latest configuration. -/
theorem run_channel
    {verbose : Bool}
    (configured : hierarchy.channel = .configuredFor verbose)
    (steps : List Step) :
    (hierarchy.run steps).channel = .configuredFor (latestVerbosity verbose steps) := by
  induction steps generalizing hierarchy verbose with
  | nil => exact configured
  | cons first steps inductionHypothesis =>
      rw [latestVerbosity_cons]
      refine inductionHypothesis ?_
      rw [step_channel, configured]
      cases first.verbosity? <;> rfl

theorem AskedFor.initial : initial.AskedFor where
  root := List.mem_singleton.mpr rfl
  asked := fun _ known => ⟨none, List.mem_singleton.mp known⟩

theorem AskedFor.add
    (askedFor : hierarchy.AskedFor)
    (asked : Option String) :
    (hierarchy.add (loggerName asked)).AskedFor := by
  unfold Hierarchy.add
  split
  · exact askedFor
  · exact {
      root := List.mem_append_left _ askedFor.root
      asked := by
        intro name known
        rcases List.mem_append.mp known with known | added
        · exact askedFor.asked name known
        · exact ⟨asked, List.mem_singleton.mp added⟩ }

theorem AskedFor.step
    (askedFor : hierarchy.AskedFor)
    (first : Step) :
    (hierarchy.step first).AskedFor := by
  cases first with
  | configure verbose => exact ⟨askedFor.root, askedFor.asked⟩
  | ask asked => exact askedFor.add asked
  | log asked record => exact askedFor.add asked

theorem AskedFor.run
    (askedFor : hierarchy.AskedFor)
    (steps : List Step) :
    (hierarchy.run steps).AskedFor := by
  induction steps generalizing hierarchy with
  | nil => exact askedFor
  | cons first steps inductionHypothesis => exact inductionHypothesis (askedFor.step first)

/-! ## What is written for a record -/

/-- A name that does not begin with a dot leads to the logger of the program. -/
theorem AskedFor.leads
    (askedFor : hierarchy.AskedFor)
    {asked : Option String}
    (undotted : ¬BeginsWithDot (asked.getD "")) :
    hierarchy.Leads (loggerName asked) := by
  cases asked with
  | none => exact .here
  | some name =>
      by_cases empty : name = ""
      · subst empty
        exact .here
      · rw [loggerName_some empty]
        exact leads_append askedFor.root undotted

/-- A name that begins with exactly one dot does not. -/
theorem AskedFor.not_leads
    (askedFor : hierarchy.AskedFor)
    {rest : String}
    (undotted : ¬BeginsWithDot rest) :
    ¬hierarchy.Leads (loggerName (some ("." ++ rest))) := by
  have occupied : "." ++ rest ≠ "" := by
    simp [← String.toList_inj]
  have spelled : rootName ++ "." ++ ("." ++ rest) = rootName ++ ".." ++ rest := by
    simp [← String.toList_inj]
  rw [loggerName_some occupied, spelled]
  exact not_leads_append askedFor undotted

/-- What comes to the channel is written by it, and what leads nowhere is written plainly. -/
theorem log_written
    {verbose : Bool}
    (configured : hierarchy.channel = .configuredFor verbose)
    (asked : Option String)
    (record : Record) :
    (hierarchy.log asked record).2 =
      if (hierarchy.add (loggerName asked)).Leads (loggerName asked) then
        if record.level.reaches (Channel.thresholdFor verbose) then [record.text] else []
      else writePlainly record := by
  simp only [log, write, leadsToRoot_iff, add_channel, configured, Channel.configuredFor_write]

/--
From the first configuration on, the channel keeps exactly one handler and hands
nothing on, and both thresholds are that of the latest configuration.  A record that
comes to the channel is then written exactly once if its level reaches the threshold,
and not at all otherwise.  It comes there from every logger whose name does not begin
with a dot, but from none whose name begins with exactly one.
-/
theorem recorded_once_or_astray
    (earlier later : List Step)
    (verbose : Bool) :
    let loggers := initial.run (earlier ++ .configure verbose :: later)
    let threshold := Channel.thresholdFor (latestVerbosity verbose later)
    loggers.channel.handlers = [⟨threshold⟩] ∧
      loggers.channel.threshold = threshold ∧
      loggers.channel.propagates = false ∧
      ∀ asked record,
        let known := loggers.add (loggerName asked)
        ((loggers.log asked record).2 =
          if known.Leads (loggerName asked) then
            if record.level.reaches threshold then [record.text] else []
          else writePlainly record) ∧
        (¬BeginsWithDot (asked.getD "") → known.Leads (loggerName asked)) ∧
        ∀ rest, asked = some ("." ++ rest) → ¬BeginsWithDot rest →
          ¬known.Leads (loggerName asked) := by
  intro loggers threshold
  have configured : loggers.channel = .configuredFor (latestVerbosity verbose later) := by
    have split : loggers = ((initial.run earlier).configure verbose).run later :=
      List.foldl_append
    rw [split]
    refine run_channel ?_ later
    exact (initial.run earlier).channel.configure_eq_configuredFor verbose
  have askedFor : loggers.AskedFor := AskedFor.initial.run _
  refine ⟨by rw [configured]; rfl, by rw [configured]; rfl, by rw [configured]; rfl, ?_⟩
  intro asked record known
  refine ⟨log_written configured asked record, (askedFor.add asked).leads, ?_⟩
  rintro rest rfl undotted
  exact (askedFor.add _).not_leads undotted

/--
After a verbose and then a quiet configuration, a warning of a nested logger is
written once, while one of a logger that went astray comes without its head.
-/
theorem recorded_once_or_astray_nested :
    let steps : List Step :=
      [.ask (some "a"), .configure true, .log (some ".") ⟨.debug, "lost"⟩, .configure false]
    let loggers := initial.run steps
    ¬BeginsWithDot "a.b" ∧
      (loggers.log (some "a.b") ⟨.warning, "m"⟩).2 = ["[caps] WARNING m\n"] ∧
      (loggers.log (some ".a") ⟨.warning, "m"⟩).2 = ["m\n"] := by
  intro steps loggers
  have undotted : ¬BeginsWithDot "a.b" := by decide
  obtain ⟨-, -, -, recorded⟩ := recorded_once_or_astray [.ask (some "a")]
    [.log (some ".") ⟨.debug, "lost"⟩, .configure false] true
  obtain ⟨nested, leads, -⟩ := recorded (some "a.b") ⟨.warning, "m"⟩
  obtain ⟨dotted, -, astray⟩ := recorded (some ".a") ⟨.warning, "m"⟩
  refine ⟨undotted, nested.trans ?_, dotted.trans ?_⟩
  · rw [if_pos (leads undotted)]
    rfl
  · rw [if_neg (astray "a" rfl (by decide))]
    rfl

/--
The logger asked for by a single dot is not below that of the program.  What it logs
at a level that reaches the threshold is lost, or written without its head.
-/
theorem astray_record_isLost :
    let loggers := initial.run [.configure true]
    Level.debug.reaches (Channel.thresholdFor true) = true ∧
      (loggers.log (some ".") ⟨.debug, "m"⟩).2 = [] ∧
      (loggers.log (some ".") ⟨.error, "m"⟩).2 = ["m\n"] := by
  decide

end Hierarchy

end Log
end SchemaCodegen
