import JobMon.Influx.Flux

/-!
# Plain configurations

With plain names and pipelines in the configuration and plain node lists, every query
about a job is plain.

* `InfluxDB.Plain` — the configuration is plain.
* `plain_of_mem_sent`, `plain_aggregateQuery`, `plain_of_mem_lastSent` — the queries
  are.
-/

namespace JobMon

open Keyed

/-- The pipeline texts the code puts in itself are pipelines. -/
structure PipelineTexts (Pipeline : String → Prop) : Prop where
  nothing : Pipeline ""
  last : ∀ s, Pipeline s → Pipeline (s ++ "|> last()")

/-- A metric whose texts are what they are taken for. -/
structure MetricConfig.Plain (Pipeline : String → Prop) (m : MetricConfig) : Prop where
  measurement : Literal m.measurement
  type : Literal m.type
  aggFn : Literal m.aggFn
  filterFunc : Pipeline m.filterFunc
  postQueryOp : Pipeline m.postQueryOp

/-- A configuration whose texts are what they are taken for. -/
structure InfluxDB.Plain (Pipeline : String → Prop) (db : InfluxDB) : Prop where
  bucket : Literal db.bucketName
  metrics : ∀ p ∈ db.metrics.rows, p.2.Plain Pipeline
  quantiles : ∀ x ∈ db.metricQuantiles, PlainNumber x

theorem literal_of_plainPattern {s : String} (h : PlainPattern s) : Literal s := by
  intro c hc
  have hplain := h c hc
  refine ⟨?_, ?_, ?_⟩
  · rintro rfl
    revert hplain
    decide
  · rintro rfl
    revert hplain
    decide
  · rintro rfl
    revert hplain
    decide

theorem literal_append {s t : String} (hs : Literal s) (ht : Literal t) : Literal (s ++ t) := by
  intro c hc
  rw [String.toList_append, List.mem_append] at hc
  rcases hc with hc | hc
  · exact hs c hc
  · exact ht c hc

theorem literal_aggregateMeasurement {measurement aggFn : String}
    (hmeasurement : Literal measurement) (haggFn : Literal aggFn) :
    Literal (InfluxDB.aggregateMeasurement measurement aggFn) := by
  have hsep : Literal "_" := by decide
  unfold InfluxDB.aggregateMeasurement
  split
  · exact literal_append (literal_append hmeasurement hsep) haggFn
  · exact hmeasurement

namespace InfluxDB

variable {Pipeline : String → Prop} {db : InfluxDB} {j : JobMetadata} {nodes aggFn : String}
  {d : Go.Duration} {raw forceAggregate : Bool} {m : MetricConfig} {q : FluxQuery}

/-- A metric that is not configured is empty. -/
theorem Plain.metric (h : db.Plain Pipeline) (hpipe : PipelineTexts Pipeline) (guid : String) :
    (db.metric guid).Plain Pipeline := by
  unfold InfluxDB.metric
  cases hguid : db.metrics.lookup guid with
  | none => exact ⟨by decide, by decide, by decide, hpipe.nothing, hpipe.nothing⟩
  | some m => exact h.metrics _ (Map.lookup_eq_some_iff.1 hguid)

theorem Plain.jobMetrics (h : db.Plain Pipeline) (hpipe : PipelineTexts Pipeline)
    (hm : m ∈ db.jobMetrics j) : m.Plain Pipeline := by
  obtain ⟨guid, -, rfl⟩ := List.mem_map.1 hm
  exact h.metric hpipe guid

theorem plain_of_buildQuery {q₀ : FluxQuery} (h : buildQuery q₀ = some q)
    (hplain : q₀.Plain Pipeline) : q.Plain Pipeline := by
  rw [eq_of_buildQuery h]
  exact hplain

section Builders

variable (hdb : db.Plain Pipeline)

include hdb

theorem plain_simpleQuery (hm : m.Plain Pipeline) (hnodes : PlainPattern nodes)
    (h : db.simpleQuery m j nodes d = some q) : q.Plain Pipeline :=
  plain_of_buildQuery h
    ⟨hm.type, hdb.bucket, hm.measurement, ⟨literal_of_plainPattern hnodes, fun _ => hnodes⟩,
      hm.filterFunc, hm.postQueryOp⟩

theorem plain_aggregateQuery (hm : m.Plain Pipeline) (hnodes : PlainPattern nodes)
    (haggFn : Literal aggFn) (h : db.aggregateQuery m j nodes aggFn d = some q) :
    q.Plain Pipeline :=
  plain_of_buildQuery h
    ⟨trivial, hdb.bucket, literal_aggregateMeasurement hm.measurement haggFn,
      ⟨literal_of_plainPattern hnodes, fun _ => hnodes⟩, hm.filterFunc, hm.postQueryOp⟩

theorem plain_quantileQuery (hpipe : PipelineTexts Pipeline) (hm : m.Plain Pipeline)
    (hnodes : PlainPattern j.nodeList)
    (h : db.quantileQuery m j db.metricQuantiles d = some q) : q.Plain Pipeline := by
  unfold quantileQuery at h
  split at h
  · exact plain_of_buildQuery h
      ⟨hdb.quantiles, hdb.bucket, literal_aggregateMeasurement hm.measurement hm.aggFn,
        ⟨literal_of_plainPattern hnodes, fun _ => hnodes⟩, hpipe.nothing, hm.postQueryOp⟩
  · exact plain_of_buildQuery h
      ⟨hdb.quantiles, hdb.bucket, hm.measurement,
        ⟨literal_of_plainPattern hnodes, fun _ => hnodes⟩, hm.filterFunc, hm.postQueryOp⟩

/-- **The queries of `getJobData` are plain**, for plain nodes. -/
theorem plain_of_mem_sent (hpipe : PipelineTexts Pipeline) (hnodes : PlainPattern nodes)
    (hall : PlainPattern j.nodeList) (h : some q ∈ db.sent j nodes d raw forceAggregate) :
    q.Plain Pipeline := by
  obtain ⟨m, hm, hq⟩ := mem_sent_cases h
  have hplain := hdb.jobMetrics hpipe hm
  rcases hq with (hq | hq) | hq
  · exact plain_simpleQuery hdb hplain hnodes hq
  · exact plain_aggregateQuery hdb hplain hnodes hplain.aggFn hq
  · exact plain_quantileQuery hdb hpipe hplain hall hq

theorem plain_of_mem_lastSent (hpipe : PipelineTexts Pipeline) (hall : PlainPattern j.nodeList)
    (h : some q ∈ db.lastSent j d) : q.Plain Pipeline := by
  obtain ⟨m, hm, hq⟩ := mem_lastSent_cases h
  have hplain := hdb.jobMetrics hpipe hm
  have hlast : (lastMetric m).Plain Pipeline :=
    ⟨hplain.measurement, hplain.type, hplain.aggFn, hplain.filterFunc,
      hpipe.last _ hplain.postQueryOp⟩
  rcases hq with hq | hq
  · exact plain_simpleQuery hdb hlast hall hq
  · exact plain_aggregateQuery hdb hlast hall hlast.aggFn hq

end Builders

end InfluxDB

end JobMon
