import HostFleet.Command.Basic
import HostFleet.FileSystem.Tree
import HostFleet.Proofs.Fleet.History

/-!
# The commands tell one story

A document about all hosts, a document about one of them, a report and a list are made in four ways. All of them say the
same about a host: whether it resolves, to what, and which host is the first that does not.
-/

namespace HostFleet

namespace Json

def field? (name : String) : Json → Option Json
  | .record members => (members.find? fun member => member.1 = name).map Prod.snd
  | _ => none

theorem field?_object (m : NameMap Json) (name : String) : (object m).field? name = m.get? name := by
  rw [object, field?, NameMap.get?]
  induction m.entries with
  | nil => rfl
  | cons e rest ih =>
    rw [NameMap.seek]
    by_cases hname : name = e.1
    · rw [if_pos hname, List.find?_cons_of_pos (by simp [hname]), Option.map_some]
    · rw [if_neg hname, List.find?_cons_of_neg (by simpa [eq_comm] using hname), ih]

end Json

namespace Fleet

variable {fleet : Fleet} {format : Format}

/-! ### Rendered hosts -/

theorem rendered_eq_ok_iff {name : String} {doc : Json} :
    fleet.rendered name format = .ok doc ↔ ∃ c, fleet.resolved name = .ok c ∧ c.render format = doc := by
  simp only [rendered, orFailure, map_eq_ok_iff, mapError_eq_ok_iff]

theorem rendered_of_error {name : String} {fault : FleetFault} (h : fleet.resolved name = .error fault) :
    fleet.rendered name format = .error ⟨["resolving host " ++ name], .fleet fault⟩ := by
  rw [rendered, orFailure, h]
  rfl

theorem exists_rendered_iff (fleet : Fleet) (name : String) (format : Format) :
    (∃ doc, fleet.rendered name format = .ok doc) ↔ ∃ c, fleet.resolved name = .ok c := by
  simp only [rendered_eq_ok_iff]
  constructor
  · rintro ⟨_, c, hc, rfl⟩
    exact ⟨c, hc⟩
  · rintro ⟨c, hc⟩
    exact ⟨_, c, hc, rfl⟩

theorem map_pair_eq_ok_iff {name : String} {member : String × Json} :
    (fleet.rendered name format).map (name, ·) = .ok member ↔
      name = member.1 ∧ fleet.rendered name format = .ok member.2 := by
  rw [map_eq_ok_iff]
  constructor
  · rintro ⟨doc, hdoc, rfl⟩
    exact ⟨rfl, hdoc⟩
  · rintro ⟨rfl, hdoc⟩
    exact ⟨member.2, hdoc, rfl⟩

theorem renderedAll_eq_ok_iff {doc : Json} :
    fleet.renderedAll format = .ok doc ↔
      ∃ members, List.Forall₂ (fun name member => name = member.1 ∧ fleet.rendered name format = .ok member.2)
        fleet.registry.hosts.names members ∧ Json.ofFields members = doc := by
  rw [renderedAll, map_eq_ok_iff]
  simp only [mapM_eq_ok_iff, map_pair_eq_ok_iff]

theorem exists_renderedAll_iff :
    (∃ doc, fleet.renderedAll format = .ok doc) ↔
      ∀ name ∈ fleet.registry.hosts.names, ∃ c, fleet.resolved name = .ok c := by
  simp only [renderedAll_eq_ok_iff]
  constructor
  · rintro ⟨_, members, hmembers, -⟩ name hname
    obtain ⟨member, -, hdoc⟩ := List.exists_forall₂_iff.1 ⟨members, hmembers⟩ name hname
    exact (fleet.exists_rendered_iff name format).1 ⟨_, hdoc⟩
  · intro h
    have heach : ∀ name ∈ fleet.registry.hosts.names, ∃ member : String × Json,
        name = member.1 ∧ fleet.rendered name format = .ok member.2 := by
      intro name hname
      obtain ⟨doc, hdoc⟩ := (fleet.exists_rendered_iff name format).2 (h name hname)
      exact ⟨(name, doc), rfl, hdoc⟩
    obtain ⟨members, hmembers⟩ := List.exists_forall₂_iff.2 heach
    exact ⟨_, members, hmembers, rfl⟩

/-- The document about all hosts has the document about each of them under its name. -/
theorem members_of_renderedAll {doc : Json} (h : fleet.renderedAll format = .ok doc) :
    ∃ members : NameMap Json, doc = .object members ∧ members.names = fleet.registry.hosts.names ∧
      ∀ name ∈ fleet.registry.hosts.names, ∃ own, members.get? name = some own ∧ fleet.rendered name format = .ok own := by
  obtain ⟨members, hmembers, rfl⟩ := renderedAll_eq_ok_iff.1 h
  have hkeys : members.map Prod.fst = fleet.registry.hosts.names := by
    have hfst : List.Forall₂ (fun name key => key = name) fleet.registry.hosts.names (members.map Prod.fst) :=
      List.forall₂_map_right_iff.2 (hmembers.imp fun _ _ h => h.1.symm)
    exact List.forall₂_eq_eq_eq ▸ hfst.flip
  have hnames : (NameMap.ofList members).names = fleet.registry.hosts.names :=
    NameMap.names_eq_of_mem_iff fun name => by rw [NameMap.mem_names_ofList, hkeys]
  refine ⟨.ofList members, rfl, hnames, fun name hname => ?_⟩
  obtain ⟨own, hown⟩ := Option.isSome_iff_exists.1 ((NameMap.mem_names_iff _ _).1 (hnames ▸ hname))
  refine ⟨own, hown, ?_⟩
  obtain ⟨other, heq, hdoc⟩ := List.exists_forall₂_iff.1 ⟨_, hmembers.flip⟩ _ (NameMap.mem_of_get?_ofList hown)
  rwa [heq] at hdoc

/-- The failure of the document about all hosts is that of the first host that does not resolve. -/
theorem first_of_renderedAll_eq_error {failure : Failure} (h : fleet.renderedAll format = .error failure) :
    ∃ before name after fault, fleet.registry.hosts.names = before ++ name :: after ∧
      (∀ other ∈ before, ∃ c, fleet.resolved other = .ok c) ∧ fleet.resolved name = .error fault ∧
      failure = ⟨["resolving host " ++ name], .fleet fault⟩ := by
  obtain ⟨before, name, after, hsplit, hbefore, hname⟩ := exists_of_mapM_eq_error (map_eq_error_iff.1 h)
  rw [map_eq_error_iff] at hname
  cases hresolved : fleet.resolved name with
  | ok c =>
    obtain ⟨doc, hdoc⟩ := (fleet.exists_rendered_iff name format).2 ⟨c, hresolved⟩
    simp [hdoc] at hname
  | error fault =>
    rw [rendered_of_error hresolved] at hname
    refine ⟨before, name, after, fault, hsplit, fun other hother => ?_, hresolved, (Except.error.inj hname).symm⟩
    obtain ⟨member, hmember⟩ := hbefore other hother
    exact (fleet.exists_rendered_iff other format).1 ⟨_, (map_pair_eq_ok_iff.1 hmember).2⟩

/-! ### Reported hosts -/

theorem assess_host (name : String) (result : Except FleetFault Configuration) : (assess name result).1.host = name := by
  cases result <;> rfl

theorem assess_passed (name : String) (result : Except FleetFault Configuration) :
    (assess name result).1.passed = result.isOk := by
  cases result <;> rfl

theorem failures_reported :
    fleet.reported.failures = (fleet.registry.hosts.names.filter fun name => !(fleet.resolved name).isOk).length := by
  rw [Report.failures, reported, List.filter_map, List.length_map]
  simp only [Function.comp_def, assess_passed]

theorem verdict_reported_iff :
    verdict fleet.reported = .ok () ↔ ∀ name ∈ fleet.registry.hosts.names, ∃ c, fleet.resolved name = .ok c := by
  have hnone : fleet.reported.failures = 0 ↔ ∀ name ∈ fleet.registry.hosts.names, ∃ c, fleet.resolved name = .ok c := by
    rw [failures_reported, List.length_eq_zero_iff, List.filter_eq_nil_iff]
    simp [isOk_eq_true_iff]
  rw [← hnone, verdict]
  split
  · rename_i hpos
    exact iff_of_false (by simp) (Nat.ne_of_gt hpos)
  · rename_i hzero
    exact iff_of_true rfl (Nat.eq_zero_of_not_pos hzero)

/-! ### Listed hosts -/

theorem field?_render_system (c : Configuration) : (c.render .system).field? "system" = some (.text c.platform.name) := by
  rw [Configuration.render, Json.ofFields, Json.field?_object]
  simp [NameMap.ofList, NameMap.get?_insert]

theorem field?_render_deploy (c : Configuration) :
    ((c.render .deploy).field? "deployment").bind (·.field? "targetHost") = some (.text c.deployment.targetHost) := by
  rw [Configuration.render, Json.ofFields, Json.field?_object]
  simp [NameMap.ofList, NameMap.get?_insert, Deployment.toJson, Json.ofFields, Json.field?_object]

/-- A host that resolves is listed with the platform and the address of its configuration. -/
theorem hostLine_of_resolved {host : Host} (hhost : host ∈ fleet.registry.toList) {c : Configuration}
    (h : fleet.resolved host.name = .ok c) :
    fleet.hostLine host = host.name ++ " " ++ host.group ++ " " ++ c.platform.name ++ " " ++ c.deployment.targetHost ++ "\n" := by
  rw [resolved, (fleet.registry.mem_toList_iff host).1 hhost] at h
  cases hbuild : fleet.supply.build (host.home fleet.settings) with
  | error fault => simp [Host.configured, hbuild] at h
  | ok packages =>
    simp only [Host.configured, hbuild, Except.ok.injEq] at h
    subst h
    rw [hostLine, platformOf_eq hhost]

end Fleet

/-! ### What is written -/

namespace Command

theorem output_documented_of_ok {result : Except Failure Json} {doc : Json} (h : result = .ok doc) (run : Run) :
    (documented result run).output = written doc := by
  rw [h]
  rfl

theorem output_eval {fleet : Fleet} {format : Format} {doc : Json} (h : fleet.renderedAll format = .ok doc) :
    ((Command.eval format).perform fleet).output = written doc :=
  output_documented_of_ok ((Fleet.run_after (fleet.serves_document format) [.stage "Resolving hosts"]).trans h) _

theorem output_inspect {fleet : Fleet} {name : String} {format : Format} {doc : Json}
    (h : fleet.rendered name format = .ok doc) : ((Command.inspect name format).perform fleet).output = written doc :=
  output_documented_of_ok ((Fleet.run_after (fleet.serves_documentOf name format) [.stage ("Resolving " ++ name)]).trans h) _

theorem output_documented_of_error {result : Except Failure Json} {run : Run} {failure : Failure}
    (h : (documented result run).outcome = .error failure) : (documented result run).output = [] := by
  cases result with
  | ok doc => simp [documented] at h
  | error e => rfl

def isDocument : Command → Bool
  | .inspect _ _ => true
  | .eval _ => true
  | _ => false

theorem exists_documented (fleet : Fleet) {command : Command} (h : command.isDocument = true) :
    ∃ result run, command.perform fleet = documented result run := by
  cases command with
  | inspect host format => exact ⟨_, _, rfl⟩
  | eval format => exact ⟨_, _, rfl⟩
  | list => simp [isDocument] at h
  | check => simp [isDocument] at h
  | version => simp [isDocument] at h

/-- A command that needs a fleet writes nothing if none can be loaded, and else does what it does on the fleet. -/
theorem run_cases (s : Surroundings) (asked : Option Path) {command : Command} (h : command ≠ .version) :
    (run s asked command).output = [] ∨
      ∃ fleet : Fleet, (run s asked command).output = (command.perform fleet).output ∧
        (run s asked command).outcome = (command.perform fleet).outcome := by
  cases hload : (Setup.load s asked).outcome with
  | error e => exact .inl (by simp only [run, hload])
  | ok ready => exact .inr ⟨ready.fleet, by simp only [run, hload], by simp only [run, hload]⟩

theorem output_of_outcome_eq_error {s : Surroundings} {asked : Option Path} {command : Command}
    (hcommand : command.isDocument = true) {failure : Failure} (h : (run s asked command).outcome = .error failure) :
    (run s asked command).output = [] := by
  have hversion : command ≠ .version := by
    rintro rfl
    simp [isDocument] at hcommand
  rcases run_cases s asked hversion with hnone | ⟨fleet, houtput, houtcome⟩
  · exact hnone
  · obtain ⟨result, run, hperform⟩ := exists_documented fleet hcommand
    rw [houtcome, hperform] at h
    rw [houtput, hperform]
    exact output_documented_of_error h

end Command

/-- The commands agree, whatever was asked of the fleet before. A document about all hosts is made exactly if every host
resolves, and exactly then a check succeeds. The document has the names of the hosts, and under each of them what is
rendered of the host alone; or its failure is that of the first host that does not resolve. A report has one entry for
each host, which tells whether the host resolves, and a check counts those that do not. A host that resolves is listed
with the platform and the address that are rendered of it. A document is written as it was made, and nothing is written
of one that fails. -/
theorem commands_agree (fleet : Fleet) (format : Format) (past past' : List Fleet.Call) :
    ((∃ doc, ((fleet.document format).run (fleet.after past)).1 = .ok doc) ↔
      ∀ name ∈ fleet.registry.hosts.names, ∃ c, ((fleet.resolveHost name).run (fleet.after past')).1 = .ok c) ∧
    (Fleet.verdict (fleet.report.run (fleet.after past)).1 = .ok () ↔
      ∀ name ∈ fleet.registry.hosts.names, ∃ c, ((fleet.resolveHost name).run (fleet.after past')).1 = .ok c) ∧
    (∀ doc, ((fleet.document format).run (fleet.after past)).1 = .ok doc →
      ∃ members : NameMap Json, doc = .object members ∧ members.names = fleet.registry.hosts.names ∧
        ∀ name ∈ fleet.registry.hosts.names, ∃ own, members.get? name = some own ∧
          ((fleet.documentOf name format).run (fleet.after past')).1 = .ok own) ∧
    (∀ failure, ((fleet.document format).run (fleet.after past)).1 = .error failure →
      ∃ before name after fault, fleet.registry.hosts.names = before ++ name :: after ∧
        (∀ other ∈ before, ∃ c, ((fleet.resolveHost other).run (fleet.after past')).1 = .ok c) ∧
        ((fleet.resolveHost name).run (fleet.after past')).1 = .error fault ∧
        failure = ⟨["resolving host " ++ name], .fleet fault⟩ ∧
        ((fleet.documentOf name format).run (fleet.after past')).1 = .error failure) ∧
    ((fleet.report.run (fleet.after past)).1.map ReportEntry.host = fleet.registry.hosts.names ∧
      ∀ entry ∈ (fleet.report.run (fleet.after past)).1, entry.passed = false ↔
        ∃ fault, ((fleet.resolveHost entry.host).run (fleet.after past')).1 = .error fault) ∧
    (∀ failure, Fleet.verdict (fleet.report.run (fleet.after past)).1 = .error failure → failure =
      { cause := .note (toString (fleet.registry.hosts.names.filter fun name =>
        !((fleet.resolveHost name).run (fleet.after past')).1.isOk).length ++ " host(s) failed") }) ∧
    (∀ (index : Nat) (host : Host), fleet.registry.toList[index]? = some host →
      (∃ c, ((fleet.resolveHost host.name).run (fleet.after past)).1 = .ok c) →
      ∃ system target whole node, fleet.hostLines[index]? =
          some (host.name ++ " " ++ host.group ++ " " ++ system ++ " " ++ target ++ "\n") ∧
        ((fleet.documentOf host.name .system).run (fleet.after past')).1 = .ok whole ∧
        whole.field? "system" = some (.text system) ∧
        ((fleet.documentOf host.name .deploy).run (fleet.after past')).1 = .ok node ∧
        (node.field? "deployment").bind (·.field? "targetHost") = some (.text target)) ∧
    ((∀ doc, ((fleet.document format).run (fleet.after past)).1 = .ok doc →
        ((Command.eval format).perform fleet).output = Command.written doc) ∧
      ∀ name doc, ((fleet.documentOf name format).run (fleet.after past)).1 = .ok doc →
        ((Command.inspect name format).perform fleet).output = Command.written doc) ∧
    ∀ (s : Surroundings) (asked : Option Path) (command : Command), command.isDocument = true →
      ∀ failure, (command.run s asked).outcome = .error failure →
        (command.run s asked).output = [] ∧ ∀ space, (command.run s asked).within space = ([], .error failure) := by
  have hresolve : ∀ p name, ((fleet.resolveHost name).run (fleet.after p)).1 = fleet.resolved name :=
    fun p name => Fleet.run_after (fleet.serves_resolved name) p
  have hone : ∀ p name f, ((fleet.documentOf name f).run (fleet.after p)).1 = fleet.rendered name f :=
    fun p name f => Fleet.run_after (fleet.serves_documentOf name f) p
  have hall : ((fleet.document format).run (fleet.after past)).1 = fleet.renderedAll format :=
    Fleet.run_after (fleet.serves_document format) past
  have hreport : (fleet.report.run (fleet.after past)).1 = fleet.reported := Fleet.run_after fleet.serves_report past
  simp only [hresolve, hone, hall, hreport]
  refine ⟨Fleet.exists_renderedAll_iff, Fleet.verdict_reported_iff, fun doc => Fleet.members_of_renderedAll,
    fun failure hfailure => ?_, ⟨?_, fun entry hentry => ?_⟩, fun failure hfailure => ?_, fun index host hhost hc => ?_,
    ⟨fun doc hdoc => ?_, fun name doc hdoc => ?_⟩, fun s asked command hcommand failure hfailure => ?_⟩
  · obtain ⟨before, name, after, fault, hnames, hbefore, hfault, rfl⟩ := Fleet.first_of_renderedAll_eq_error hfailure
    exact ⟨before, name, after, fault, hnames, hbefore, hfault, rfl, Fleet.rendered_of_error hfault⟩
  · rw [Fleet.reported, List.map_map]
    simp [Function.comp_def, Fleet.assess_host]
  · obtain ⟨name, -, rfl⟩ := List.mem_map.1 hentry
    rw [Fleet.assess_passed, Fleet.assess_host]
    exact isOk_eq_false_iff
  · rw [Fleet.verdict] at hfailure
    split at hfailure
    · rw [← Fleet.failures_reported]
      exact (Except.error.inj hfailure).symm
    · simp at hfailure
  · obtain ⟨c, hc⟩ := hc
    refine ⟨c.platform.name, c.deployment.targetHost, c.render .system, c.render .deploy, ?_,
      Fleet.rendered_eq_ok_iff.2 ⟨c, hc, rfl⟩, Fleet.field?_render_system c,
      Fleet.rendered_eq_ok_iff.2 ⟨c, hc, rfl⟩, Fleet.field?_render_deploy c⟩
    rw [Fleet.hostLines, List.getElem?_map, hhost, Option.map_some,
      Fleet.hostLine_of_resolved (List.mem_of_getElem? hhost) hc]
  · exact Command.output_eval hdoc
  · exact Command.output_inspect hdoc
  · have houtput := Command.output_of_outcome_eq_error hcommand hfailure
    refine ⟨houtput, fun space => ?_⟩
    rw [Transcript.within, houtput, hfailure]
    rfl

/-- Calls that meet the fault of a platform first and ask for a host that does not exist. -/
def chores : List Fleet.Call :=
  [.stage "Chores", .host "overheat", .report, .documentOf "ghost" .system, .store (.warm [⟨"aarch64-linux"⟩]), .all,
    .document .deploy]

theorem halfBroken_commands_agree :
    (∃ failure before name after fault, ((halfBroken.document .deploy).run (halfBroken.after chores)).1 = .error failure ∧
      halfBroken.registry.hosts.names = before ++ name :: after ∧
      (∀ other ∈ before, ∃ c, ((halfBroken.resolveHost other).run (halfBroken.after [])).1 = .ok c) ∧
      ((halfBroken.resolveHost name).run (halfBroken.after [])).1 = .error fault ∧
      failure = ⟨["resolving host " ++ name], .fleet fault⟩) ∧
    (∃ system target whole, halfBroken.hostLines[0]? = some ("adenine nucleus " ++ system ++ " " ++ target ++ "\n") ∧
      ((halfBroken.documentOf "adenine" .system).run (halfBroken.after [])).1 = .ok whole ∧
      whole.field? "system" = some (.text system)) ∧
    (∃ members : NameMap Json, (((halfBroken.withHosts soundHosts).document .deploy).run
        ((halfBroken.withHosts soundHosts).after chores)).1 = .ok (.object members) ∧ members.names = ["adenine"]) ∧
    ((Command.eval .deploy).run ⟨FileTree.empty.lexical, "/", none⟩ none).output = [] := by
  have hlist : halfBroken.registry.toList[0]? = some adenine := rfl
  have hempty : ((Command.eval .deploy).run ⟨FileTree.empty.lexical, "/", none⟩ none).outcome.isOk = false := by
    decide +kernel
  obtain ⟨failure, hfailure⟩ : ∃ failure, ((halfBroken.document .deploy).run (halfBroken.after chores)).1 =
      .error failure := isOk_eq_false_iff.1 (by decide +kernel)
  obtain ⟨c, hc⟩ : ∃ c, ((halfBroken.resolveHost "adenine").run (halfBroken.after chores)).1 = .ok c :=
    isOk_eq_true_iff.1 (by decide +kernel)
  obtain ⟨doc, hdoc⟩ : ∃ doc, (((halfBroken.withHosts soundHosts).document .deploy).run
      ((halfBroken.withHosts soundHosts).after chores)).1 = .ok doc := isOk_eq_true_iff.1 (by decide +kernel)
  obtain ⟨refusal, hrefusal⟩ := isOk_eq_false_iff.1 hempty
  obtain ⟨-, -, -, hfirst, -, -, hlines, -, hnothing⟩ := commands_agree halfBroken .deploy chores []
  obtain ⟨-, -, hmembers, -⟩ := commands_agree (halfBroken.withHosts soundHosts) .deploy chores []
  refine ⟨?_, ?_, ?_, (hnothing _ _ _ rfl refusal hrefusal).1⟩
  · obtain ⟨before, name, after, fault, hnames, hbefore, hfault, heq, -⟩ := hfirst failure hfailure
    exact ⟨failure, before, name, after, fault, hfailure, hnames, hbefore, hfault, heq⟩
  · obtain ⟨system, target, whole, node, hline, hwhole, hsystem, -, -⟩ := hlines 0 adenine hlist ⟨c, hc⟩
    exact ⟨system, target, whole, hline, hwhole, hsystem⟩
  · obtain ⟨members, rfl, hnames, -⟩ := hmembers doc hdoc
    exact ⟨members, hdoc, hnames⟩

end HostFleet
