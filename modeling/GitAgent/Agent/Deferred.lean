import GitAgent.Agent.Toolset
import GitAgent.Library.Trim
import Mathlib.Data.Finset.Sort

/-!
# Deferred tools

The tools of other servers are not bound to the model at once, but are put in a catalog that the
model searches (`core/tools/mcp/tool_search.py`). What is assembled has the catalog, and binds the
tools of it all the same.
-/

namespace Agent

/-! ### The catalog -/

/-- A tool: its name and description, its metadata, and its schema. -/
structure BaseTool where
  name : String
  description : Option String := none
  metadata : Option Json.Fields := none
  schema : Json := .null
  deriving DecidableEq

/-- `is_mcp_tool`. -/
def BaseTool.isMcpTool (t : BaseTool) : Bool :=
  Json.get (t.metadata.getD []) "git_agent_mcp" = some (.bool true)

/-- `tag_mcp_tool`. -/
def BaseTool.tagMcpTool (t : BaseTool) : BaseTool :=
  { t with
    metadata := some (("git_agent_mcp", .bool true) ::
      (t.metadata.getD []).filter fun f => f.1 ≠ "git_agent_mcp") }

/-- What the catalog takes from the libraries: the text in lower case, how often a pattern is found
in a text, the hash of the schemas of some tools, which can fail, and the text of a schema. -/
structure CatalogTexts where
  lower : String → String
  found : String → String → ℕ
  hash : List BaseTool → Option String
  dumps : List BaseTool → String

/-- `DeferredToolCatalog`. -/
structure DeferredToolCatalog where
  tools : List BaseTool
  deriving DecidableEq

/-- `MAX_RESULTS`. -/
def maxResults : ℕ :=
  5

namespace DeferredToolCatalog

variable (S : CatalogTexts) (catalog : DeferredToolCatalog)

/-- `names`. -/
def names : Finset String :=
  (catalog.tools.map BaseTool.name).toFinset

/-- The text in which a tool is looked for. -/
def shown (t : BaseTool) : String :=
  t.name ++ " " ++ t.description.getD ""

/-- The tools with the highest scores first, those with one score in their order. -/
def sorted (score : BaseTool → ℕ) (tools : List BaseTool) : List BaseTool :=
  tools.mergeSort fun t t' => score t' ≤ score t

/-- The names that a query selects. -/
def selected (query : List Char) : List String :=
  (query.splitOn ',').map fun name => strip (String.ofList name)

/-- `search`, by names, by a word of the name with a pattern, or by a pattern. -/
def search (query : String) : List BaseTool :=
  let query := (strip query).toList
  if query = [] then []
  else if "select:".toList.isPrefixOf query then
    catalog.tools.filter fun t => t.name ∈ selected (query.drop 7)
  else if query.head? = some '+' then
    let rest := query.tail.dropWhile isSpace
    let required := S.lower (String.ofList (rest.takeWhile fun c => !isSpace c))
    let pattern := (rest.dropWhile fun c => !isSpace c).dropWhile isSpace
    if rest = [] then []
    else
      let candidates := catalog.tools.filter fun t =>
        hasInfix required (S.lower t.name)
      let candidates :=
        if pattern = [] then candidates
        else sorted (fun t => S.found (String.ofList pattern) (shown t)) candidates
      candidates.take maxResults
  else
    let pattern := String.ofList query
    let scored := catalog.tools.filter fun t => S.found pattern (shown t) ≠ 0
    (sorted (fun t => if S.found pattern t.name ≠ 0 then 2 else 1) scored).take maxResults

end DeferredToolCatalog

/-! ### What is assembled -/

/-- The tool `tool_search` of a catalog. -/
def toolSearchTool : BaseTool where
  name := "tool_search"
  description :=
    some "Fetch full schemas for deferred tools by query (select:/+prefix/keywords)."

/-- What `tool_search` answers. -/
def toolSearch (S : CatalogTexts) (catalog : DeferredToolCatalog) (query : String) : String :=
  let matched := catalog.search S query
  if matched = [] then "No tools found matching: " ++ query else S.dumps matched

/-- `DeferredToolSetup`, with the catalog of the tool `tool_search` for the tool. -/
structure DeferredToolSetup where
  toolSearchTool : Option DeferredToolCatalog := none
  deferredNames : Finset String := ∅
  catalogHash : Option String := none

/-- `build_deferred_tool_setup`, which fails if the hash does. -/
def buildDeferredToolSetup (S : CatalogTexts) (candidateTools : List BaseTool) (enabled : Bool) :
    Option DeferredToolSetup :=
  if !enabled then some {}
  else
    let deferred := candidateTools.filter BaseTool.isMcpTool
    if deferred = [] then some {}
    else
      let catalog : DeferredToolCatalog := { tools := deferred }
      (S.hash deferred).map fun hash =>
        { toolSearchTool := some catalog, deferredNames := catalog.names, catalogHash := some hash }

/-- `assemble_deferred_tools`, which fails if nothing is deferred that should be. -/
def assembleDeferredTools (S : CatalogTexts) (candidateTools : List BaseTool) (enabled : Bool) :
    Option (List BaseTool × DeferredToolSetup) := do
  let setup ← buildDeferredToolSetup S candidateTools enabled
  if enabled && setup.deferredNames = ∅ && candidateTools.any BaseTool.isMcpTool then none
  return (candidateTools ++ (setup.toolSearchTool.map fun _ => toolSearchTool).toList, setup)

/-! ### What should be assembled -/

/-- No tool is bound that is deferred, what is deferred are the tools of other servers, nothing is
lost and only `tool_search` is added, and each deferred tool is found by its name. -/
structure Defers (S : CatalogTexts) (candidates bound : List BaseTool) (setup : DeferredToolSetup) :
    Prop where
  unbound : ∀ t ∈ bound, t.name ∉ setup.deferredNames
  names : ∀ name, name ∈ setup.deferredNames ↔ ∃ t ∈ candidates, t.isMcpTool = true ∧ t.name = name
  parts : ∀ t, (t ∈ bound ∨ t ∈ candidates ∧ t.name ∈ setup.deferredNames) ↔
    t ∈ candidates ∨ setup.deferredNames ≠ ∅ ∧ t = toolSearchTool
  found : ∀ t ∈ candidates, t.isMcpTool = true →
    ∃ catalog, setup.toolSearchTool = some catalog ∧
      t ∈ catalog.search S ("select:" ++ t.name)

/-- The tools are assembled so that those of other servers stay deferred. -/
def StayDeferred (S : CatalogTexts) (candidates : List BaseTool) : Prop :=
  ∃ bound setup, assembleDeferredTools S candidates true = some (bound, setup) ∧
    Defers S candidates bound setup

/-! ### What is assembled of tools -/

variable {S : CatalogTexts} {candidates : List BaseTool}

/-- Without tools of other servers nothing is deferred. -/
theorem assemble_of_plain (h : ∀ t ∈ candidates, t.isMcpTool = false) :
  assembleDeferredTools S candidates true = some (candidates, {})
  := by
  have hnil : candidates.filter BaseTool.isMcpTool = [] := by
    rw [List.filter_eq_nil_iff]
    intro t ht
    rw [h t ht]
    exact Bool.false_ne_true
  have hany : candidates.any BaseTool.isMcpTool = false := by
    rw [List.any_eq_false]
    intro t ht
    rw [h t ht]
    exact Bool.false_ne_true
  simp [assembleDeferredTools, buildDeferredToolSetup, hnil, hany]

/-- With tools of other servers all of them are bound, and deferred. -/
theorem assemble_of_mcp {t : BaseTool} (ht : t ∈ candidates) (hmcp : t.isMcpTool = true) :
  assembleDeferredTools S candidates true =
    (S.hash (candidates.filter BaseTool.isMcpTool)).map fun hash =>
      let catalog : DeferredToolCatalog := { tools := candidates.filter BaseTool.isMcpTool }
      (candidates ++ [toolSearchTool],
        { toolSearchTool := some catalog, deferredNames := catalog.names, catalogHash := some hash })
  := by
  have hmem : t ∈ candidates.filter BaseTool.isMcpTool := List.mem_filter.mpr ⟨ht, hmcp⟩
  have hne : candidates.filter BaseTool.isMcpTool ≠ [] := List.ne_nil_of_mem hmem
  have hnames : ({ tools := candidates.filter BaseTool.isMcpTool } : DeferredToolCatalog).names ≠
      ∅ := by
    apply Finset.ne_empty_of_mem (a := t.name)
    rw [DeferredToolCatalog.names, List.mem_toFinset]
    apply List.mem_map_of_mem hmem
  rw [assembleDeferredTools, buildDeferredToolSetup, if_neg (by simp), if_neg hne]
  cases S.hash (candidates.filter BaseTool.isMcpTool) with
  | none => rfl
  | some hash => simp [hnames]

/-- The names that are deferred are those of the tools of other servers, and nothing is lost. -/
theorem assemble_names {bound : List BaseTool} {setup : DeferredToolSetup}
    (h : assembleDeferredTools S candidates true = some (bound, setup)) :
  (∀ name, name ∈ setup.deferredNames ↔ ∃ t ∈ candidates, t.isMcpTool = true ∧ t.name = name) ∧
    bound = candidates ++ if setup.deferredNames = ∅ then [] else [toolSearchTool]
  := by
  by_cases hmcp : ∃ t ∈ candidates, t.isMcpTool = true
  · obtain ⟨t, ht, hmcp⟩ := hmcp
    rw [assemble_of_mcp ht hmcp] at h
    obtain ⟨hash, -, heq⟩ := Option.map_eq_some_iff.mp h
    obtain ⟨rfl, rfl⟩ := Prod.mk.inj heq
    have hnames : ∀ name, name ∈ ({ tools := candidates.filter BaseTool.isMcpTool } :
        DeferredToolCatalog).names ↔ ∃ t ∈ candidates, t.isMcpTool = true ∧ t.name = name := by
      intro name
      simp only [DeferredToolCatalog.names, List.mem_toFinset, List.mem_map, List.mem_filter,
        and_assoc]
    refine ⟨hnames, ?_⟩
    rw [if_neg (Finset.ne_empty_of_mem ((hnames t.name).mpr ⟨t, ht, hmcp, rfl⟩))]
  · have hplain : ∀ t ∈ candidates, t.isMcpTool = false := by
      intro t ht
      rw [Bool.eq_false_iff]
      exact fun htrue => hmcp ⟨t, ht, htrue⟩
    rw [assemble_of_plain hplain] at h
    obtain ⟨rfl, rfl⟩ := Prod.mk.inj (Option.some.inj h)
    constructor
    · intro name
      simp only [Finset.notMem_empty, false_iff]
      rintro ⟨t, ht, htrue, -⟩
      exact hmcp ⟨t, ht, htrue⟩
    · rw [if_pos rfl, List.append_nil]

/-- **When tools stay deferred**: if there are none to defer. -/
theorem stayDeferred_iff (S : CatalogTexts) (candidates : List BaseTool) :
  StayDeferred S candidates ↔ ∀ t ∈ candidates, t.isMcpTool = false
  := by
  constructor
  · rintro ⟨bound, setup, hassemble, hdefers⟩ t ht
    rw [Bool.eq_false_iff]
    intro hmcp
    obtain ⟨hnames, hbound⟩ := assemble_names hassemble
    apply hdefers.unbound t
    · rw [hbound]
      apply List.mem_append_left _ ht
    · apply (hnames t.name).mpr ⟨t, ht, hmcp, rfl⟩
  · intro h
    refine ⟨candidates, {}, assemble_of_plain h, ?_⟩
    constructor
    · intro t _
      apply Finset.notMem_empty
    · intro name
      simp only [Finset.notMem_empty, false_iff]
      rintro ⟨t, ht, hmcp, -⟩
      rw [h t ht] at hmcp
      contradiction
    · intro t
      simp
    · intro t ht hmcp
      rw [h t ht] at hmcp
      contradiction

/-- A plain tool and one of another server. -/
def sampleTools : List BaseTool :=
  [{ name := "sandbox_run" }, { name := "search_cves", metadata := some [("git_agent_mcp", .bool true)] }]

/-- Hashes and texts that never fail. -/
def sampleTexts : CatalogTexts where
  lower := id
  found := fun _ _ => 0
  hash := fun _ => some ""
  dumps := fun _ => ""

/-- A tool of another server is bound, although it is deferred. -/
theorem not_stayDeferred_sampleTools :
  ¬ StayDeferred sampleTexts sampleTools
  := by
  rintro ⟨bound, setup, hassemble, hdefers⟩
  obtain ⟨hnames, rfl⟩ := assemble_names hassemble
  have hmem : sampleTools[1] ∈ sampleTools := List.getElem_mem _
  apply hdefers.unbound sampleTools[1] (List.mem_append_left _ hmem)
  apply (hnames _).mpr ⟨sampleTools[1], hmem, by decide, rfl⟩

/-! ### What is found by its name -/

/-- What lies between separators has none. -/
theorem not_mem_of_mem_splitOn {sep : Char} {cs piece : List Char} (h : piece ∈ cs.splitOn sep) :
  sep ∉ piece
  := by
  induction cs generalizing piece with
  | nil =>
      rw [List.splitOn_nil, List.mem_singleton] at h
      rw [h]
      apply List.not_mem_nil
  | cons c cs ih =>
      rw [List.splitOn_cons_eq_if_modifyHead] at h
      split at h
      · rcases List.mem_cons.mp h with rfl | h
        · apply List.not_mem_nil
        · apply ih h
      · rename_i hc
        obtain ⟨first, rest, hsplit⟩ := List.exists_cons_of_ne_nil (List.splitOn_ne_nil sep cs)
        rw [hsplit, List.modifyHead_cons] at h
        rw [hsplit] at ih
        rcases List.mem_cons.mp h with rfl | h
        · rw [List.mem_cons, not_or]
          constructor
          · rintro rfl
            simp at hc
          · apply ih List.mem_cons_self
        · apply ih (List.mem_cons_of_mem _ h)

/-- The names that a query for one name selects. -/
theorem search_select (catalog : DeferredToolCatalog) (name : String) :
  catalog.search S ("select:" ++ name) = catalog.tools.filter fun t =>
    t.name ∈ DeferredToolCatalog.selected (name.toList.rdropWhile isSpace)
  := by
  have hstrip : (strip ("select:" ++ name)).toList =
      "select:".toList ++ name.toList.rdropWhile isSpace := by
    rw [strip, String.toList_ofList, String.toList_append]
    change Trim.trim isSpace ("select:".toList ++ name.toList) = _
    rw [Trim.trim, Trim.dropWhile_of_head, Trim.rdropWhile_append]
    · intro c hc
      have hlast : "select:".toList.getLast? = some ':' := by decide
      rw [hlast] at hc
      rw [← Option.some.inj hc]
      decide
    · intro c hc
      rw [List.head?_append_of_ne_nil _ (by decide)] at hc
      have hhead : "select:".toList.head? = some 's' := by decide
      rw [hhead] at hc
      rw [← Option.some.inj hc]
      decide
  have hprefix : "select:".toList.isPrefixOf ("select:".toList ++ name.toList.rdropWhile isSpace) =
      true := List.isPrefixOf_iff_prefix.mpr (List.prefix_append _ _)
  have hdrop : ("select:".toList ++ name.toList.rdropWhile isSpace).drop 7 =
      name.toList.rdropWhile isSpace := List.drop_left' (by decide)
  rw [DeferredToolCatalog.search, hstrip, if_neg (by simp), if_pos hprefix, hdrop]

/-- **When a deferred tool is found by its name**: if the name has no comma, and no blanks around
it. -/
theorem mem_search_select_iff {catalog : DeferredToolCatalog} {t : BaseTool} (ht : t ∈ catalog.tools) :
  t ∈ catalog.search S ("select:" ++ t.name) ↔ strip t.name = t.name ∧ ',' ∉ t.name.toList
  := by
  rw [search_select, List.mem_filter, decide_eq_true_eq, and_iff_right ht,
    DeferredToolCatalog.selected, List.mem_map]
  constructor
  · rintro ⟨piece, hpiece, hname⟩
    have htrim : t.name.toList = Trim.trim isSpace piece := by
      rw [← hname, strip, String.toList_ofList, String.toList_ofList]
      rfl
    constructor
    · rw [strip]
      change String.ofList (Trim.trim isSpace t.name.toList) = _
      rw [htrim, Trim.trim_trim, ← htrim, String.ofList_toList]
    · intro hcomma
      rw [htrim] at hcomma
      exact not_mem_of_mem_splitOn hpiece (Trim.trim_subset _ hcomma)
  · rintro ⟨hstrip, hcomma⟩
    have htrim : Trim.trim isSpace t.name.toList = t.name.toList := by
      have htoList := congrArg String.toList hstrip
      rwa [strip, String.toList_ofList] at htoList
    have hlast : t.name.toList.rdropWhile isSpace = t.name.toList :=
      Trim.rdropWhile_of_last (Trim.trim_eq_self_iff.mp htrim).last
    refine ⟨t.name.toList, ?_, by rw [String.ofList_toList, hstrip]⟩
    rw [hlast, List.splitOn_eq_singleton hcomma]
    apply List.mem_singleton_self

end Agent
