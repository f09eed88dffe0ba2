import Parseable.Modal

/-!
# The time-range rewrite of a logical plan

Query::final_logical_plan hands the raw plan, or the plan under a top-level Explain,
to transform, which rewrites it bottom-up with DataFusion's TreeNode::transform:
every TableScan without a time filter of its own becomes the input of a Filter on
its table's time column for the query's time range. That traversal follows the
inputs of each plan node; the plans inside subquery expressions (IN, EXISTS and
scalar subqueries) are not visited. So every scan reached through plan inputs is
time-bounded, and a scan inside a subquery keeps whatever bound it had: an IN subquery
over another table reads it over all time.

PartialTimeFilter::binary_expr and DEFAULT_TIMESTAMP_KEY are declared outside the
query module; they are parameters here, and no result depends on their values.
-/

namespace Parseable.QueryPlan

/-- `std::ops::Bound`. -/
inductive Bound
  | included (t : NaiveDateTime)
  | excluded (t : NaiveDateTime)
  | unbounded

/-- `PartialTimeFilter`: one side of a time range, or one instant. -/
inductive PartialTimeFilter
  | low (bound : Bound)
  | high (bound : Bound)
  | eq (t : NaiveDateTime)

/-- `Column`: an optional relation and a name. -/
structure Column where
  /-- The table the column is qualified with. -/
  relation : Option String
  /-- The column's name. -/
  name : String

/-- DataFusion's `Operator`. -/
inductive Operator
  | eq
  | lt
  | ltEq
  | gt
  | gtEq
  | and
  | or
  | other (name : String)

mutual
/-- DataFusion's `Expr`. The variants that hold a plan are kept apart; every other
one is `other`, with its sub-expressions. -/
inductive Expr
  | column (column : Column)
  | literal (value : String)
  | binaryExpr (left : Expr) (op : Operator) (right : Expr)
  | inSubquery (expr : Expr) (subquery : LogicalPlan) (negated : Bool)
  | exists (subquery : LogicalPlan) (negated : Bool)
  | scalarSubquery (subquery : LogicalPlan)
  | other (name : String) (args : List Expr)

/-- DataFusion's `LogicalPlan`. A TableScan keeps its table and the filters pushed
into it; every node other than TableScan, Filter and Explain is `other`, with its
expressions and its inputs. -/
inductive LogicalPlan
  | tableScan (tableName : String) (filters : List Expr)
  | filter (predicate : Expr) (input : LogicalPlan)
  | explain (verbose : Bool) (plan : LogicalPlan)
  | other (name : String) (exprs : List Expr) (inputs : List LogicalPlan)
end

/-- DataFusion's `and`. -/
def and (left right : Expr) : Expr := .binaryExpr left .and right

/-- `Iterator::reduce(and)`. -/
def reduceAnd : List Expr → Option Expr
  | [] => none
  | e :: es => some (es.foldl and e)

mutual
/-- `TreeNode::transform` on a plan: rewrite the inputs of a node bottom-up, then the
node itself. The plans inside the node's expressions are not visited. -/
def LogicalPlan.transform (f : LogicalPlan → LogicalPlan) : LogicalPlan → LogicalPlan
  | .tableScan tableName filters => f (.tableScan tableName filters)
  | .filter predicate input => f (.filter predicate (input.transform f))
  | .explain verbose plan => f (.explain verbose (plan.transform f))
  | .other name exprs inputs => f (.other name exprs (LogicalPlan.transformList f inputs))

/-- `TreeNode::transform` over the inputs of a node, in order. -/
def LogicalPlan.transformList (f : LogicalPlan → LogicalPlan) : List LogicalPlan → List LogicalPlan
  | [] => []
  | plan :: plans => plan.transform f :: LogicalPlan.transformList f plans
end

section Rewrite

variable (binaryExpr : PartialTimeFilter → Expr → Expr) (defaultTimestampKey : String)

/-- The time column's name: the stream's time partition, else DEFAULT_TIMESTAMP_KEY. -/
def timeColumnName (timePartition : Option String) : String :=
  match timePartition with
  | some timePartition => timePartition
  | none => defaultTimestampKey

/-- `table_contains_any_time_filters`: some filter pushed into the scan is a binary
expression whose left side is the time column. -/
def tableContainsAnyTimeFilters (filters : List Expr) (timePartition : Option String) : Bool :=
  (filters.filterMap fun x =>
      match x with
      | .binaryExpr left _ _ => some left
      | _ => none).any fun left =>
    match left with
    | .column column => column.name == timeColumnName defaultTimestampKey timePartition
    | _ => false

/-- The predicate transform puts above a scan of `tableName`. -/
def timeFilter (startTime endTime : NaiveDateTime) (timePartition : Option String) (tableName : String) :
    Expr :=
  let column : Column := ⟨some tableName, timeColumnName defaultTimestampKey timePartition⟩
  and (binaryExpr (.low (.included startTime)) (.column column))
    (binaryExpr (.high (.excluded endTime)) (.column column))

/-- The closure transform passes to plan.transform. -/
def rewriteTableScan (startTime endTime : NaiveDateTime) (timePartition : Option String) :
    LogicalPlan → LogicalPlan
  | .tableScan tableName filters =>
    let column : Column := ⟨some tableName, timeColumnName defaultTimestampKey timePartition⟩
    let newFilters :=
      if !tableContainsAnyTimeFilters defaultTimestampKey filters timePartition then
        [binaryExpr (.low (.included startTime)) (.column column),
          binaryExpr (.high (.excluded endTime)) (.column column)]
      else []
    match reduceAnd newFilters with
    | some newFilter => .filter newFilter (.tableScan tableName filters)
    | none => .tableScan tableName filters
  | x => x

/-- `transform`. -/
def transform (plan : LogicalPlan) (startTime endTime : NaiveDateTime) (timePartition : Option String) :
    LogicalPlan :=
  plan.transform (rewriteTableScan binaryExpr defaultTimestampKey startTime endTime timePartition)

/-- `Query::final_logical_plan`: under a top-level Explain the explained plan is
rewritten. -/
def finalLogicalPlan (rawLogicalPlan : LogicalPlan) (startTime endTime : NaiveDateTime)
    (timePartition : Option String) : LogicalPlan :=
  match rawLogicalPlan with
  | .explain verbose plan => .explain verbose (transform binaryExpr defaultTimestampKey plan startTime endTime timePartition)
  | x => transform binaryExpr defaultTimestampKey x startTime endTime timePartition

end Rewrite

/-! ## Where the scans of a plan are -/

/-- A TableScan occurring in a plan: its table, its own filters, and the predicate
of the Filter whose input it is, if it is one. -/
structure ScanSite where
  /-- The scanned table. -/
  tableName : String
  /-- The filters pushed into the scan. -/
  filters : List Expr
  /-- The predicate of the Filter right above the scan. -/
  parent : Option Expr

mutual
/-- Every scan of a plan whose parent, if a Filter, has `parent` as predicate;
scans inside expressions included. -/
def LogicalPlan.scanSites (parent : Option Expr) : LogicalPlan → List ScanSite
  | .tableScan tableName filters => ⟨tableName, filters, parent⟩ :: Expr.scanSitesList filters
  | .filter predicate input => predicate.scanSites ++ input.scanSites (some predicate)
  | .explain _ plan => plan.scanSites none
  | .other _ exprs inputs => Expr.scanSitesList exprs ++ LogicalPlan.scanSitesList inputs

/-- The scans of a list of plan inputs. -/
def LogicalPlan.scanSitesList : List LogicalPlan → List ScanSite
  | [] => []
  | plan :: plans => plan.scanSites none ++ LogicalPlan.scanSitesList plans

/-- The scans inside an expression's subqueries. -/
def Expr.scanSites : Expr → List ScanSite
  | .column _ => []
  | .literal _ => []
  | .binaryExpr left _ right => left.scanSites ++ right.scanSites
  | .inSubquery expr subquery _ => expr.scanSites ++ subquery.scanSites none
  | .exists subquery _ => subquery.scanSites none
  | .scalarSubquery subquery => subquery.scanSites none
  | .other _ args => Expr.scanSitesList args

/-- The scans inside a list of expressions. -/
def Expr.scanSitesList : List Expr → List ScanSite
  | [] => []
  | e :: es => e.scanSites ++ Expr.scanSitesList es
end

mutual
/-- The scans reached from a plan's root through plan inputs only. -/
def LogicalPlan.inputScanSites (parent : Option Expr) : LogicalPlan → List ScanSite
  | .tableScan tableName filters => [⟨tableName, filters, parent⟩]
  | .filter predicate input => input.inputScanSites (some predicate)
  | .explain _ plan => plan.inputScanSites none
  | .other _ _ inputs => LogicalPlan.inputScanSitesList inputs

/-- The scans reached through a list of plan inputs. -/
def LogicalPlan.inputScanSitesList : List LogicalPlan → List ScanSite
  | [] => []
  | plan :: plans => plan.inputScanSites none ++ LogicalPlan.inputScanSitesList plans
end

section Bounded

variable (binaryExpr : PartialTimeFilter → Expr → Expr) (defaultTimestampKey : String)
  (startTime endTime : NaiveDateTime) (timePartition : Option String)

/-- A scan is time-bounded when it has a time filter of its own, or is the input of a
Filter on its table's time column for the query's range. -/
def TimeBounded (site : ScanSite) : Prop :=
  tableContainsAnyTimeFilters defaultTimestampKey site.filters timePartition = true ∨
    site.parent = some (timeFilter binaryExpr defaultTimestampKey startTime endTime timePartition site.tableName)

/-- The rewrite of a TableScan: kept when it already has a time filter, wrapped in the time Filter otherwise. -/
theorem rewriteTableScan_tableScan (tableName : String) (filters : List Expr) :
    rewriteTableScan binaryExpr defaultTimestampKey startTime endTime timePartition
        (.tableScan tableName filters) =
      if tableContainsAnyTimeFilters defaultTimestampKey filters timePartition then .tableScan tableName filters
      else .filter (timeFilter binaryExpr defaultTimestampKey startTime endTime timePartition tableName)
        (.tableScan tableName filters) := by
  by_cases hc : tableContainsAnyTimeFilters defaultTimestampKey filters timePartition <;>
    simp [rewriteTableScan, hc, reduceAnd, timeFilter]

/-- `SELECT * FROM logs WHERE host IN (SELECT host FROM hosts)`, as the SQL front end
plans it before optimisation. -/
def inSubqueryPlan : LogicalPlan :=
  .filter (.inSubquery (.column ⟨none, "host"⟩) (.tableScan "hosts" []) false) (.tableScan "logs" [])

/-- Whatever binary_expr builds and whatever the time column, the scan of the
subquery keeps no time bound. -/
theorem inSubqueryPlan_scan_unbounded :
    ⟨"hosts", [], none⟩ ∈ (finalLogicalPlan binaryExpr defaultTimestampKey inSubqueryPlan startTime endTime
        timePartition).scanSites none ∧
      ¬ TimeBounded binaryExpr defaultTimestampKey startTime endTime timePartition ⟨"hosts", [], none⟩ := by
  refine ⟨?_, ?_⟩
  · simp [finalLogicalPlan, transform, inSubqueryPlan, LogicalPlan.transform, rewriteTableScan_tableScan,
      rewriteTableScan, LogicalPlan.scanSites, Expr.scanSites, Expr.scanSitesList]
  · simp [TimeBounded, tableContainsAnyTimeFilters]

end Bounded

/-- A scan inside an IN subquery is left without a time bound. -/
theorem subquery_scan_escapes_time_filter :
    ¬ ∀ (binaryExpr : PartialTimeFilter → Expr → Expr) (defaultTimestampKey : String)
      (rawLogicalPlan : LogicalPlan) (startTime endTime : NaiveDateTime) (timePartition : Option String),
      ∀ site ∈ (finalLogicalPlan binaryExpr defaultTimestampKey rawLogicalPlan startTime endTime
          timePartition).scanSites none,
        TimeBounded binaryExpr defaultTimestampKey startTime endTime timePartition site := fun h =>
  let hu := inSubqueryPlan_scan_unbounded (fun _ e => e) "p_timestamp" 0 1 none
  hu.2 (h _ _ inSubqueryPlan 0 1 none _ hu.1)

/-! ## The rewrite of a plan without subqueries -/

mutual
/-- Whether an expression holds a subquery. -/
def Expr.hasSubquery : Expr → Bool
  | .column _ => false
  | .literal _ => false
  | .binaryExpr left _ right => left.hasSubquery || right.hasSubquery
  | .inSubquery _ _ _ => true
  | .exists _ _ => true
  | .scalarSubquery _ => true
  | .other _ args => Expr.hasSubqueryList args

/-- Whether one of a list of expressions holds a subquery. -/
def Expr.hasSubqueryList : List Expr → Bool
  | [] => false
  | e :: es => e.hasSubquery || Expr.hasSubqueryList es
end

mutual
/-- Whether some expression of a plan holds a subquery. -/
def LogicalPlan.hasSubquery : LogicalPlan → Bool
  | .tableScan _ filters => Expr.hasSubqueryList filters
  | .filter predicate input => predicate.hasSubquery || input.hasSubquery
  | .explain _ plan => plan.hasSubquery
  | .other _ exprs inputs => Expr.hasSubqueryList exprs || LogicalPlan.hasSubqueryList inputs

/-- Whether some expression of a list of plans holds a subquery. -/
def LogicalPlan.hasSubqueryList : List LogicalPlan → Bool
  | [] => false
  | plan :: plans => plan.hasSubquery || LogicalPlan.hasSubqueryList plans
end

mutual
/-- An expression with `wrap tableName filters` in place of each TableScan of its
subqueries. -/
def Expr.replaceScans (wrap : String → List Expr → LogicalPlan) : Expr → Expr
  | .column column => .column column
  | .literal value => .literal value
  | .binaryExpr left op right => .binaryExpr (left.replaceScans wrap) op (right.replaceScans wrap)
  | .inSubquery expr subquery negated =>
    .inSubquery (expr.replaceScans wrap) (subquery.replaceScans wrap) negated
  | .exists subquery negated => .exists (subquery.replaceScans wrap) negated
  | .scalarSubquery subquery => .scalarSubquery (subquery.replaceScans wrap)
  | .other name args => .other name (Expr.replaceScansList wrap args)

/-- `Expr.replaceScans` over a list of expressions. -/
def Expr.replaceScansList (wrap : String → List Expr → LogicalPlan) : List Expr → List Expr
  | [] => []
  | e :: es => e.replaceScans wrap :: Expr.replaceScansList wrap es

/-- A plan with `wrap tableName filters` in place of each of its TableScans, those inside
expressions included; every other node as it was. -/
def LogicalPlan.replaceScans (wrap : String → List Expr → LogicalPlan) : LogicalPlan → LogicalPlan
  | .tableScan tableName filters => wrap tableName filters
  | .filter predicate input => .filter (predicate.replaceScans wrap) (input.replaceScans wrap)
  | .explain verbose plan => .explain verbose (plan.replaceScans wrap)
  | .other name exprs inputs =>
    .other name (Expr.replaceScansList wrap exprs) (LogicalPlan.replaceScansList wrap inputs)

/-- `LogicalPlan.replaceScans` over a list of plans. -/
def LogicalPlan.replaceScansList (wrap : String → List Expr → LogicalPlan) : List LogicalPlan → List LogicalPlan
  | [] => []
  | plan :: plans => plan.replaceScans wrap :: LogicalPlan.replaceScansList wrap plans
end

section Replace

variable (wrap : String → List Expr → LogicalPlan)

mutual
/-- An expression without subqueries has no scan to replace. -/
theorem Expr.replaceScans_of_hasSubquery_false :
    ∀ e : Expr, e.hasSubquery = false → e.replaceScans wrap = e
  | .column _, _ => rfl
  | .literal _, _ => rfl
  | .binaryExpr left _ right, h => by
    simp only [Expr.hasSubquery, Bool.or_eq_false_iff] at h
    simp only [Expr.replaceScans, Expr.replaceScans_of_hasSubquery_false left h.1,
      Expr.replaceScans_of_hasSubquery_false right h.2]
  | .inSubquery _ _ _, h => by cases h
  | .exists _ _, h => by cases h
  | .scalarSubquery _, h => by cases h
  | .other _ args, h => by
    simp only [Expr.replaceScans, Expr.replaceScansList_of_hasSubqueryList_false args h]

/-- Expressions without subqueries have no scans to replace. -/
theorem Expr.replaceScansList_of_hasSubqueryList_false :
    ∀ es : List Expr, Expr.hasSubqueryList es = false → Expr.replaceScansList wrap es = es
  | [], _ => rfl
  | e :: es, h => by
    simp only [Expr.hasSubqueryList, Bool.or_eq_false_iff] at h
    simp only [Expr.replaceScansList, Expr.replaceScans_of_hasSubquery_false e h.1,
      Expr.replaceScansList_of_hasSubqueryList_false es h.2]
end

/-- `f` puts `wrap tableName filters` in place of each TableScan and keeps every other
node. -/
structure RewritesScans (f : LogicalPlan → LogicalPlan) : Prop where
  tableScan : ∀ tableName filters, f (.tableScan tableName filters) = wrap tableName filters
  filter : ∀ predicate input, f (.filter predicate input) = .filter predicate input
  explain : ∀ verbose plan, f (.explain verbose plan) = .explain verbose plan
  other : ∀ name exprs inputs, f (.other name exprs inputs) = .other name exprs inputs

variable {wrap} {f : LogicalPlan → LogicalPlan}

mutual
/-- A bottom-up rewrite that changes TableScans only replaces each of them once: the
scan under what `f` puts in its place is not visited again. -/
theorem transform_eq_replaceScans (hf : RewritesScans wrap f) :
    ∀ plan : LogicalPlan, plan.hasSubquery = false → plan.transform f = plan.replaceScans wrap
  | .tableScan tableName filters, _ => by rw [LogicalPlan.transform, hf.tableScan, LogicalPlan.replaceScans]
  | .filter predicate input, h => by
    simp only [LogicalPlan.hasSubquery, Bool.or_eq_false_iff] at h
    rw [LogicalPlan.transform, hf.filter, LogicalPlan.replaceScans,
      Expr.replaceScans_of_hasSubquery_false wrap _ h.1, transform_eq_replaceScans hf input h.2]
  | .explain verbose plan, h => by
    rw [LogicalPlan.transform, hf.explain, LogicalPlan.replaceScans, transform_eq_replaceScans hf plan h]
  | .other name exprs inputs, h => by
    simp only [LogicalPlan.hasSubquery, Bool.or_eq_false_iff] at h
    rw [LogicalPlan.transform, hf.other, LogicalPlan.replaceScans,
      Expr.replaceScansList_of_hasSubqueryList_false wrap _ h.1, transformList_eq_replaceScansList hf inputs h.2]

/-- Over plans without subqueries, the rewrite of each input replaces its scans. -/
theorem transformList_eq_replaceScansList (hf : RewritesScans wrap f) :
    ∀ plans : List LogicalPlan, LogicalPlan.hasSubqueryList plans = false →
      LogicalPlan.transformList f plans = LogicalPlan.replaceScansList wrap plans
  | [], _ => rfl
  | plan :: plans, h => by
    simp only [LogicalPlan.hasSubqueryList, Bool.or_eq_false_iff] at h
    rw [LogicalPlan.transformList, LogicalPlan.replaceScansList, transform_eq_replaceScans hf plan h.1,
      transformList_eq_replaceScansList hf plans h.2]
end

end Replace

section Unfiltered

variable (binaryExpr : PartialTimeFilter → Expr → Expr) (defaultTimestampKey : String)
  (startTime endTime : NaiveDateTime) (timePartition : Option String)

/-- What a TableScan should become: unless it has a time filter of its own, the input of a
Filter `Low(Included(start)) AND High(Excluded(end))` on the column (its table, the time
partition if set, else DEFAULT_TIMESTAMP_KEY). -/
def timeBoundedScan (tableName : String) (filters : List Expr) : LogicalPlan :=
  let column : Column := ⟨some tableName, timePartition.getD defaultTimestampKey⟩
  if tableContainsAnyTimeFilters defaultTimestampKey filters timePartition then .tableScan tableName filters
  else .filter (and (binaryExpr (.low (.included startTime)) (.column column))
    (binaryExpr (.high (.excluded endTime)) (.column column))) (.tableScan tableName filters)

/-- The closure of transform changes TableScans only, each into its time-bounded form. -/
theorem rewriteTableScan_rewritesScans :
    RewritesScans (timeBoundedScan binaryExpr defaultTimestampKey startTime endTime timePartition)
      (rewriteTableScan binaryExpr defaultTimestampKey startTime endTime timePartition) where
  tableScan tableName filters := by
    rw [rewriteTableScan_tableScan, timeBoundedScan, timeFilter]
    cases timePartition <;> rfl
  filter _ _ := rfl
  explain _ _ := rfl
  other _ _ _ := rfl

/-- On a plan whose expressions hold no subqueries, transform puts each TableScan
without a time filter of its own under a Filter on its table's time column for
[start, end), once, and leaves every other node, scans with a time filter included,
as it was. -/
theorem transform_bounds_unfiltered_scans (plan : LogicalPlan) (h : plan.hasSubquery = false) :
    transform binaryExpr defaultTimestampKey plan startTime endTime timePartition =
      plan.replaceScans (timeBoundedScan binaryExpr defaultTimestampKey startTime endTime timePartition) :=
  transform_eq_replaceScans (rewriteTableScan_rewritesScans binaryExpr defaultTimestampKey startTime endTime
    timePartition) plan h

end Unfiltered

/-- `SELECT * FROM logs JOIN hosts ON logs.host = hosts.host`, as the SQL front end
plans it before optimisation. -/
def joinPlan : LogicalPlan :=
  .other "Join" [.binaryExpr (.column ⟨some "logs", "host"⟩) .eq (.column ⟨some "hosts", "host"⟩)]
    [.tableScan "logs" [], .tableScan "hosts" []]

/-- The join holds no subquery, so both of its scans are put under a time filter. -/
theorem transform_bounds_unfiltered_scans_join :
    joinPlan.hasSubquery = false ∧
      transform (fun _ e => e) "p_timestamp" joinPlan 0 1 none =
        joinPlan.replaceScans (timeBoundedScan (fun _ e => e) "p_timestamp" 0 1 none) :=
  ⟨rfl, transform_bounds_unfiltered_scans _ _ _ _ _ joinPlan rfl⟩

/-! ## The rewrite of every plan -/

mutual
/-- A plan with `wrap tableName filters` in place of each TableScan reached through plan
inputs; its expressions, and the subquery plans inside them, as they were. -/
def LogicalPlan.replaceInputScans (wrap : String → List Expr → LogicalPlan) : LogicalPlan → LogicalPlan
  | .tableScan tableName filters => wrap tableName filters
  | .filter predicate input => .filter predicate (input.replaceInputScans wrap)
  | .explain verbose plan => .explain verbose (plan.replaceInputScans wrap)
  | .other name exprs inputs => .other name exprs (LogicalPlan.replaceInputScansList wrap inputs)

/-- `LogicalPlan.replaceInputScans` over a list of plan inputs. -/
def LogicalPlan.replaceInputScansList (wrap : String → List Expr → LogicalPlan) :
    List LogicalPlan → List LogicalPlan
  | [] => []
  | plan :: plans => plan.replaceInputScans wrap :: LogicalPlan.replaceInputScansList wrap plans
end

section Inputs

variable {wrap : String → List Expr → LogicalPlan} {f : LogicalPlan → LogicalPlan}

mutual
/-- A bottom-up rewrite that changes TableScans only replaces each scan reached through
plan inputs once, and no other. -/
theorem transform_eq_replaceInputScans (hf : RewritesScans wrap f) :
    ∀ plan : LogicalPlan, plan.transform f = plan.replaceInputScans wrap
  | .tableScan tableName filters => by
    rw [LogicalPlan.transform, hf.tableScan, LogicalPlan.replaceInputScans]
  | .filter predicate input => by
    rw [LogicalPlan.transform, hf.filter, LogicalPlan.replaceInputScans, transform_eq_replaceInputScans hf input]
  | .explain verbose plan => by
    rw [LogicalPlan.transform, hf.explain, LogicalPlan.replaceInputScans, transform_eq_replaceInputScans hf plan]
  | .other name exprs inputs => by
    rw [LogicalPlan.transform, hf.other, LogicalPlan.replaceInputScans,
      transformList_eq_replaceInputScansList hf inputs]

/-- The rewrite of each input replaces the scans reached through inputs. -/
theorem transformList_eq_replaceInputScansList (hf : RewritesScans wrap f) :
    ∀ plans : List LogicalPlan,
      LogicalPlan.transformList f plans = LogicalPlan.replaceInputScansList wrap plans
  | [] => rfl
  | plan :: plans => by
    rw [LogicalPlan.transformList, LogicalPlan.replaceInputScansList, transform_eq_replaceInputScans hf plan,
      transformList_eq_replaceInputScansList hf plans]
end

end Inputs

/-- For every plan, Query::final_logical_plan puts each TableScan reached through plan
inputs, under a top-level Explain too, in its time-bounded form, once, and leaves every
other node as it was, the plans inside subquery expressions included. -/
theorem finalLogicalPlan_eq_replaceInputScans (binaryExpr : PartialTimeFilter → Expr → Expr)
    (defaultTimestampKey : String) (rawLogicalPlan : LogicalPlan) (startTime endTime : NaiveDateTime)
    (timePartition : Option String) :
    finalLogicalPlan binaryExpr defaultTimestampKey rawLogicalPlan startTime endTime timePartition =
      rawLogicalPlan.replaceInputScans
        (timeBoundedScan binaryExpr defaultTimestampKey startTime endTime timePartition) := by
  have ht := transform_eq_replaceInputScans
    (rewriteTableScan_rewritesScans binaryExpr defaultTimestampKey startTime endTime timePartition)
  cases rawLogicalPlan
  case explain verbose plan => rw [finalLogicalPlan, transform, ht, LogicalPlan.replaceInputScans]
  all_goals exact ht _

/-! ## The first table of a query -/

mutual
/-- `plan.visit(&mut TableScanVisitor)`: f_down pushes each TableScan's table and jumps
over its children; at every other node the walk goes on into its inputs, in order. -/
def LogicalPlan.visitTableScans (tables : List String) : LogicalPlan → List String
  | .tableScan tableName _ => tables ++ [tableName]
  | .filter _ input => input.visitTableScans tables
  | .explain _ plan => plan.visitTableScans tables
  | .other _ _ inputs => LogicalPlan.visitTableScansList tables inputs

/-- The visit of a node's inputs, left to right. -/
def LogicalPlan.visitTableScansList (tables : List String) : List LogicalPlan → List String
  | [] => tables
  | plan :: plans => LogicalPlan.visitTableScansList (plan.visitTableScans tables) plans
end

/-- `Query::first_table_name`: the tables the visitor collected, of which `pop` takes
the last. -/
def firstTableName (rawLogicalPlan : LogicalPlan) : Option String :=
  (rawLogicalPlan.visitTableScans []).getLast?

mutual
/-- The visitor collects, in pre-order, the tables of the scans reached through plan
inputs. -/
theorem visitTableScans_eq :
    ∀ (plan : LogicalPlan) (tables : List String) (parent : Option Expr),
      plan.visitTableScans tables = tables ++ (plan.inputScanSites parent).map ScanSite.tableName
  | .tableScan _ _, _, _ => rfl
  | .filter _ input, tables, _ => by
    rw [LogicalPlan.visitTableScans, LogicalPlan.inputScanSites]
    exact visitTableScans_eq input tables _
  | .explain _ plan, tables, _ => by
    rw [LogicalPlan.visitTableScans, LogicalPlan.inputScanSites]
    exact visitTableScans_eq plan tables none
  | .other _ _ inputs, tables, _ => by
    rw [LogicalPlan.visitTableScans, LogicalPlan.inputScanSites]
    exact visitTableScansList_eq inputs tables

/-- The visitor pushes the tables of the input scans of each plan in turn. -/
theorem visitTableScansList_eq :
    ∀ (plans : List LogicalPlan) (tables : List String),
      LogicalPlan.visitTableScansList tables plans =
        tables ++ (LogicalPlan.inputScanSitesList plans).map ScanSite.tableName
  | [], tables => by simp [LogicalPlan.visitTableScansList, LogicalPlan.inputScanSitesList]
  | plan :: plans, tables => by
    rw [LogicalPlan.visitTableScansList, visitTableScansList_eq plans, visitTableScans_eq plan tables none,
      LogicalPlan.inputScanSitesList, List.map_append, List.append_assoc]
end

/-- first_table_name returns the table of the last TableScan of the pre-order walk over
plan inputs, not of the first, and None exactly on a plan with no TableScan among its
inputs. -/
theorem firstTableName_last_input_scan (rawLogicalPlan : LogicalPlan) :
    firstTableName rawLogicalPlan = ((rawLogicalPlan.inputScanSites none).map ScanSite.tableName).getLast? ∧
      (firstTableName rawLogicalPlan = none ↔ rawLogicalPlan.inputScanSites none = []) := by
  have h : firstTableName rawLogicalPlan =
      ((rawLogicalPlan.inputScanSites none).map ScanSite.tableName).getLast? := by
    rw [firstTableName, visitTableScans_eq rawLogicalPlan [] none, List.nil_append]
  exact ⟨h, by simp [h]⟩

/-- The join meets the scan of `logs` first, and first_table_name returns `hosts`. -/
theorem firstTableName_returns_last_scan :
    ((joinPlan.inputScanSites none).map ScanSite.tableName).head? = some "logs" ∧
      firstTableName joinPlan = some "hosts" := ⟨rfl, rfl⟩

end Parseable.QueryPlan
