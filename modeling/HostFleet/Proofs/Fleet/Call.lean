import HostFleet.Fleet.Output
import HostFleet.Fleet.Report
import HostFleet.Proofs.Fleet.Resolution
import HostFleet.Proofs.Outcome

/-!
# Calls on a fleet

What the host of a name resolves to, what is rendered of it and what is reported about it are written down without a run.
Documents and reports serve, in the sense of `Supply.Serves`, so whatever calls were made on a fleet before, the next one
comes out as these say.
-/

namespace HostFleet

namespace Supply

variable {supply : Supply}

theorem serves_forM_say {β : Type} {l : List β} {event : β → Log.Event} (h : ∀ b ∈ l, (event b).source ≠ .cache) :
    supply.Serves [] (l.forM fun b => Run.say (event b)) () := by
  induction l with
  | nil => exact serves_pure ()
  | cons b rest ih =>
    obtain ⟨hfirst, hrest⟩ := List.forall_mem_cons.1 h
    exact (serves_say (Run.ne_building (.inl hfirst))).bind (ih hrest)

theorem serves_stage (supply : Supply) (message : String) : supply.Serves [] (Run.say (.stage message)) () :=
  serves_say (Run.ne_building (.inl (by simp [Log.Event.stage])))

/-- An action may look at the run, as long as this makes no difference to its result. -/
theorem serves_of_run {β : Type} {asks : List Platform} {next : Run → StateM Run β} {b : β}
    (h : ∀ run, supply.Serves asks (next run) b) : supply.Serves asks (do next (← MonadState.get)) b :=
  fun requested run hrun => h run requested run hrun

end Supply

namespace Fleet

variable (fleet : Fleet)

/-! ### Results without a run -/

def resolved (name : String) : Except FleetFault Configuration :=
  match fleet.registry.get? name with
  | none => .error (.unknownHost name)
  | some host => host.configured fleet.settings fleet.supply

def rendered (name : String) (format : Format) : Except Failure Json :=
  (orFailure name (fleet.resolved name)).map (·.render format)

def renderedAll (format : Format) : Except Failure Json :=
  (fleet.registry.hosts.names.mapM fun name => (fleet.rendered name format).map (name, ·)).map Json.ofFields

def reported : Report := fleet.registry.hosts.names.map fun name => (assess name (fleet.resolved name)).1

theorem map_configured_eq :
    (fleet.registry.toList.map fun host => (host.name, host.configured fleet.settings fleet.supply)) =
      fleet.registry.hosts.names.map fun name => (name, fleet.resolved name) := by
  rw [← fleet.registry.map_name_toList, List.map_map]
  refine List.map_congr_left fun host hhost => ?_
  have hget := (fleet.registry.mem_toList_iff host).1 hhost
  simp only [Function.comp_apply, resolved, hget]

/-! ### What serves -/

def home? (name : String) : List Platform := (fleet.registry.get? name).toList.map (Host.home · fleet.settings)

def homes : List Platform := fleet.registry.toList.map (Host.home · fleet.settings)

theorem serves_resolved (name : String) :
    fleet.supply.Serves (fleet.home? name) (fleet.resolveHost name) (fleet.resolved name) := by
  rw [home?, resolved]
  cases hget : fleet.registry.get? name with
  | none =>
    rw [resolveHost, hget]
    exact Supply.serves_pure _
  | some host => exact serves_resolveHost hget

theorem serves_documentOf (name : String) (format : Format) :
    fleet.supply.Serves (fleet.home? name) (fleet.documentOf name format) (fleet.rendered name format) :=
  (fleet.serves_resolved name).map _

theorem assemble_resolved (format : Format) :
    assemble format (fleet.registry.hosts.names.map fun name => (name, fleet.resolved name)) =
      fleet.renderedAll format := by
  have heach : ∀ name, (do .ok (name, (← orFailure name (fleet.resolved name)).render format) : Except Failure _) =
      (fleet.rendered name format).map (name, ·) := by
    intro name
    rw [rendered]
    cases orFailure name (fleet.resolved name) <;> rfl
  rw [assemble, List.mapM_map, renderedAll]
  simp only [Function.comp_def, heach]
  cases fleet.registry.hosts.names.mapM fun name => (fleet.rendered name format).map (name, ·) <;> rfl

theorem serves_document (format : Format) :
    fleet.supply.Serves fleet.homes (fleet.document format) (fleet.renderedAll format) := by
  have hall := fleet.serves_resolveAll
  rw [map_configured_eq] at hall
  rw [← assemble_resolved]
  exact hall.map (assemble format)

theorem source_of_mem_summary {report : Report} {event : Log.Event} (h : event ∈ report.summary) :
    event.source ≠ .cache := by
  rw [Report.summary] at h
  split at h
  · simp at h
  · simp only [List.cons_append, List.mem_cons, List.mem_append, List.mem_map, List.not_mem_nil, or_false] at h
    rcases h with rfl | ⟨entry, -, rfl⟩ | rfl <;> simp [Log.Event.stage, Log.Event.info]

theorem serves_tell {assessed : List (ReportEntry × Log.Event)} (h : ∀ a ∈ assessed, a.2.source ≠ .cache) :
    fleet.supply.Serves [] (tell assessed) (assessed.map Prod.fst) := by
  have hbuilds : ∀ run : Run, fleet.supply.Serves []
      (Run.say (.debug (toString run.builds ++ " package set build(s)"))) () :=
    fun run => Supply.serves_say (Run.ne_building (.inl (by simp [Log.Event.debug])))
  have hsummary : fleet.supply.Serves [] ((Report.summary (assessed.map Prod.fst)).forM Run.say) () :=
    Supply.serves_forM_say fun event hevent => source_of_mem_summary hevent
  exact (Supply.serves_forM_say h).bind
    (Supply.serves_of_run fun run => (hbuilds run).bind (hsummary.bind (Supply.serves_pure _)))

theorem serves_report : fleet.supply.Serves fleet.homes fleet.report fleet.reported := by
  have hall := fleet.serves_resolveAll
  rw [map_configured_eq] at hall
  have hassess : ∀ a ∈ (fleet.registry.hosts.names.map fun name => (name, fleet.resolved name)).map
      fun found => assess found.1 found.2, a.2.source ≠ .cache := by
    intro a ha
    obtain ⟨⟨name, result⟩, -, rfl⟩ := List.mem_map.1 ha
    cases result <;> simp [assess, Log.Event.debug, Log.Event.error]
  have hreported : fleet.reported = ((fleet.registry.hosts.names.map fun name => (name, fleet.resolved name)).map
      fun found => assess found.1 found.2).map Prod.fst := by
    rw [List.map_map, List.map_map]
    rfl
  have hreport : fleet.supply.Serves ([] ++ (fleet.homes ++ [])) fleet.report fleet.reported := by
    rw [hreported]
    exact (fleet.supply.serves_stage _).bind (hall.bind (fleet.serves_tell hassess))
  rwa [List.nil_append, List.append_nil] at hreport

/-! ### Histories of calls -/

/-- A call on a fleet or on its store of package sets. -/
inductive Call where
  | store (call : Supply.Call)
  | stage (message : String)
  | list
  | host (name : String)
  | all
  | documentOf (name : String) (format : Format)
  | document (format : Format)
  | report

/-- The platforms that a call asks to be built, with repeats. -/
def Call.asks (fleet : Fleet) : Call → List Platform
  | .store call => call.asks
  | .stage _ => []
  | .list => []
  | .host name => fleet.home? name
  | .all => fleet.homes
  | .documentOf name _ => fleet.home? name
  | .document _ => fleet.homes
  | .report => fleet.homes

/-- What a call does, its result aside. A list of hosts is read off the fleet. -/
def Call.act (fleet : Fleet) : Call → StateM Run Unit
  | .store call => call.act fleet.supply
  | .stage message => Run.say (.stage message)
  | .list => discard (pure fleet.hostLines)
  | .host name => discard (fleet.resolveHost name)
  | .all => discard fleet.resolveAll
  | .documentOf name format => discard (fleet.documentOf name format)
  | .document format => discard (fleet.document format)
  | .report => discard fleet.report

def after (past : List Call) : Run := Run.after (Call.act fleet) past

theorem Call.serves (call : Call) : fleet.supply.Serves (call.asks fleet) (call.act fleet) () := by
  cases call with
  | store call => exact Supply.Call.serves fleet.supply call
  | stage message => exact fleet.supply.serves_stage message
  | list => exact Supply.serves_pure ()
  | host name => exact (fleet.serves_resolved name).discard
  | all => exact fleet.serves_resolveAll.discard
  | documentOf name format => exact (fleet.serves_documentOf name format).discard
  | document format => exact (fleet.serves_document format).discard
  | report => exact fleet.serves_report.discard

theorem records_after (past : List Call) :
    Run.Records fleet.supply (past.flatMap (Call.asks fleet)) (fleet.after past) :=
  Supply.records_run (Call.serves fleet) past

variable {fleet}

/-- What serves comes out the same after every history of calls. -/
theorem run_after {β : Type} {asks : List Platform} {action : StateM Run β} {b : β}
    (h : fleet.supply.Serves asks action b) (past : List Call) : (action.run (fleet.after past)).1 = b :=
  (h _ _ (fleet.records_after past)).1

end Fleet

end HostFleet
