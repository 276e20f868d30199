import KeyScan.Proofs.Engine.Contents
import KeyScan.Proofs.Traffic.Completion

namespace KeyScan

private theorem Reader.Step.agrees {reader next : Reader TableWalker} {engine after : MemoryEngine}
    (step : reader.Step engine next after) : engine.Agrees after := by
  cases step with
  | seek target => exact .of_eq (reader.seek_engine engine target)
  | page highWaterMark => exact .of_eq (reader.page_engine engine highWaterMark)
  | release =>
    obtain ⟨table, sequence⟩ := reader.release_engine engine
    exact ⟨table, sequence⟩

namespace Service

theorem Change.agrees {before after : Service MemoryEngine TableWalker} {id : ScanId}
    (change : Change id before after) : before.engine.Agrees after.engine := by
  cases change with
  | count | withdraw | pass => exact .refl _
  | move found step => exact step.agrees

variable (service : Service MemoryEngine TableWalker) (id : ScanId)

/-- No section on a scan writes. -/
theorem agrees_respected :
    Respected id fun before after : Service MemoryEngine TableWalker =>
      before.engine.Agrees after.engine :=
  .of_change (fun service => .refl service.engine) (fun _ _ _ => .trans) fun _ _ => Change.agrees

private theorem agrees_kept (engine : MemoryEngine) :
    Kept fun service : Service MemoryEngine TableWalker => engine.Agrees service.engine :=
  .of_change fun _ _ _ change agrees => agrees.trans change.agrees

theorem perform_agrees (route : Route) (action : Action) :
    service.engine.Agrees (service.perform (.scan route id action)).2.engine :=
  perform_respects (agrees_respected id) service route action

end Service

theorem Traffic.act_agrees (act : Act) (traffic : Traffic MemoryEngine TableWalker) :
    traffic.service.engine.Agrees (traffic.act act).2.service.engine := by
  refine act_kept (Service.agrees_kept traffic.service.engine) act (.refl _) ?_
  intro options id after _ opened
  obtain ⟨_, -, -, -, -, engine⟩ := Service.create_ok opened
  exact engine ▸ traffic.service.engine.acquire_agrees

end KeyScan
