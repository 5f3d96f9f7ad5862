-- Stages are put into the text of a config line by line (config_converter.rs), and what a
-- text in blocks is read as then.
import Sai3Bench.StageTexts

namespace sai3_bench.config_converter

open blocks serde config.written serde_helpers

/-! ## The new text -/

def trim_start (line : Line) : Line := line.dropWhile isWhitespace

/-- The length of a line in bytes. -/
def len (line : Line) : Nat := (line.map Char.utf8Size).sum

/-- The advice about barriers for more than one agent. -/
def advice : List Line :=
  ["  # ⚠️  RECOMMENDED: Add barrier synchronization for distributed workloads".toList,
    "  # Without barriers, agents may race between stages causing incorrect results.".toList,
    "  # Uncomment the following to enable barriers:".toList,
    "  #".toList,
    "  # barrier_sync:".toList,
    "  #   enabled: true".toList,
    "  #".toList,
    "  # Or add per-stage barriers (see example below with \"# ADD THIS\"):".toList,
    []]

def hint (first_stage : Bool) : List Line :=
  [if first_stage then "    # ADD THIS (recommended for multi-agent workloads):".toList
    else "    # ADD THIS:".toList,
    "    # barrier:".toList,
    "    #   barrier_type: all_or_nothing".toList]

/-- A hint goes behind the type of each stage. -/
def barrier_hints : Bool → List Line → List Line
  | _, [] => []
  | first_stage, line :: rest =>
    if "type: ".toList.isPrefixOf (trim line) then
      line :: (hint first_stage ++ barrier_hints false rest)
    else line :: barrier_hints first_stage rest

def insert_stages_with_barrier_hints (result stages_yaml : List Char) : List Char :=
  result ++ unlines (barrier_hints true (lines stages_yaml))

def insert_stages_section (result stages_yaml : List Char) (is_multi_agent : Bool) : List Char :=
  let result := result ++ ['\n']
  let result := if is_multi_agent then result ++ unlines advice else result
  let result := result ++ "  stages:\n".toList
  if is_multi_agent then insert_stages_with_barrier_hints result stages_yaml
  else result ++ stages_yaml

/-- What is known of the lines so far. -/
structure Insertion where
  result : List Char := []
  in_distributed : Bool := false
  distributed_indent : Nat := 0
  found_distributed : Bool := false

def opens_distributed (line : Line) : Bool := "distributed:".toList.isPrefixOf (trim_start line)

/-- A line of text that is not indented more than the section ends it. -/
def leaves (s : Insertion) (line : Line) : Bool :=
  let trimmed := trim_start line
  let indent := len line - len trimmed
  s.in_distributed && !trimmed.isEmpty && trimmed.head? != some '#' &&
    decide (indent ≤ s.distributed_indent)

def insert_line (stages_yaml : List Char) (is_multi_agent : Bool) (s : Insertion) (line : Line) :
    Insertion :=
  if opens_distributed line then
    { result := s.result ++ line ++ ['\n'], in_distributed := true,
      distributed_indent := len line - len (trim_start line), found_distributed := true }
  else
    let s := if leaves s line then
        { s with result := insert_stages_section s.result stages_yaml is_multi_agent,
                 in_distributed := false }
      else s
    { s with result := s.result ++ line ++ ['\n'] }

def is_multi_agent (config : Config) : Bool :=
  (config.distributed.map fun d => decide (d.agents.length > 1)).getD false

def insert_stages_into_yaml (original stages_yaml : List Char) (config : Config) : List Char :=
  let is_multi_agent := is_multi_agent config
  let s := (lines original).foldl (insert_line stages_yaml is_multi_agent) {}
  let result := if s.in_distributed then insert_stages_section s.result stages_yaml is_multi_agent
    else s.result
  if s.found_distributed then result
  else
    let result := result ++ "\n# Distributed configuration (required for explicit stages)\n".toList
    let result := result ++ "distributed:\n".toList
    let result := result ++ "  agents: []  # Empty for standalone configs\n".toList
    insert_stages_section result stages_yaml is_multi_agent

/-! ## The lines of the new text -/

/-- What stands between the last field of the section and its stages. -/
def gap (multi : Bool) : List Line := [] :: if multi then advice else []

def stages_line : Line := blockLine 2 "stages" []

def hinted (multi : Bool) (ls : List Line) : List Line :=
  if multi then barrier_hints true ls else ls

def section_lines (multi : Bool) (ls : List Line) : List Line :=
  gap multi ++ stages_line :: hinted multi ls

variable {ls : List Line} {multi : Bool}

theorem unlines_append (ls ms : List Line) : unlines (ls ++ ms) = unlines ls ++ unlines ms :=
  List.flatMap_append

theorem unlines_cons (l : Line) (ls : List Line) : unlines (l :: ls) = l ++ ['\n'] ++ unlines ls :=
  List.flatMap_cons

theorem insert_section (h : ∀ l ∈ ls, Printable l) (result : List Char) :
    insert_stages_section result (unlines ls) multi =
      result ++ unlines (section_lines multi ls) := by
  have hline : "  stages:\n".toList = stages_line ++ ['\n'] := by decide
  unfold insert_stages_section insert_stages_with_barrier_hints section_lines gap hinted
  rw [lines_unlines h, hline]
  cases multi with
  | true => simp [unlines_append, unlines_cons]
  | false => simp [unlines_cons]

/-- A line that does not leave a section at the left margin. -/
def Stays (line : Line) : Prop :=
  (trim_start line).isEmpty = true ∨ (trim_start line).head? = some '#' ∨
    0 < len line - len (trim_start line)

variable {text : List Char} {s : Insertion} {l : Line}

theorem leaves_stays (hs : s.in_distributed = false ∨ s.distributed_indent = 0 ∧ Stays l) :
    leaves s l = false := by
  unfold leaves
  dsimp only
  rcases hs with hs | ⟨hindent, hempty | hcomment | hindented⟩
  · rw [hs]
    rfl
  · rw [hempty]
    simp
  · rw [hcomment]
    simp
  · have hdeeper : ¬len l - len (trim_start l) ≤ 0 := by omega
    rw [hindent, decide_eq_false hdeeper, Bool.and_false]

theorem insert_kept (h : ∀ l ∈ ls, opens_distributed l = false)
    (hs : s.in_distributed = false ∨ s.distributed_indent = 0 ∧ ∀ l ∈ ls, Stays l) :
    ls.foldl (insert_line text multi) s = { s with result := s.result ++ unlines ls } := by
  induction ls generalizing s with
  | nil => simp [unlines]
  | cons l ls ih =>
    rw [List.forall_mem_cons] at h
    have hfirst : s.in_distributed = false ∨ s.distributed_indent = 0 ∧ Stays l :=
      hs.imp_right fun hs => ⟨hs.1, hs.2 l List.mem_cons_self⟩
    have hrest : s.in_distributed = false ∨ s.distributed_indent = 0 ∧ ∀ l ∈ ls, Stays l :=
      hs.imp_right fun hs => ⟨hs.1, fun x hx => hs.2 x (List.mem_cons_of_mem _ hx)⟩
    have hline : insert_line text multi s l = { s with result := s.result ++ l ++ ['\n'] } := by
      unfold insert_line
      simp only [h.1, leaves_stays hfirst, Bool.false_eq_true, if_false]
    rw [List.foldl_cons, hline, ih (s := { s with result := s.result ++ l ++ ['\n'] }) h.2 hrest,
      unlines_cons]
    simp

/-- What opens the section at the left margin. -/
structure Margin (line : Line) : Prop where
  opens : opens_distributed line = true
  indent : len line - len (trim_start line) = 0

/-- A line at the left margin. -/
structure Leaving (line : Line) : Prop where
  trimmed : trim_start line = line
  text : line ≠ []
  comment : line.head? ≠ some '#'

variable {before block after : List Line} {head : Line}

/-- The stages go between the section and what follows it. -/
theorem insert_block {stages : List Line} {config : Config} {original : List Char}
    (hlines : lines original = before ++ head :: block ++ after)
      (hstages : ∀ l ∈ stages, Printable l)
    (houtside : ∀ l ∈ before ++ block ++ after, opens_distributed l = false) (hhead : Margin head)
    (hblock : ∀ l ∈ block, Stays l) (hafter : ∀ l ∈ after.head?, Leaving l) :
    insert_stages_into_yaml original (unlines stages) config =
      unlines (before ++ head :: (block ++ section_lines (is_multi_agent config) stages) ++
        after) := by
  rw [List.forall_mem_append, List.forall_mem_append] at houtside
  obtain ⟨⟨hbefore, hin⟩, hout⟩ := houtside
  unfold insert_stages_into_yaml
  dsimp only
  rw [hlines, List.foldl_append, List.foldl_append, insert_kept hbefore (.inl rfl), List.foldl_cons]
  have hopened : insert_line (unlines stages) (is_multi_agent config)
      { result := [] ++ unlines before } head =
        { result := unlines (before ++ [head]), in_distributed := true, distributed_indent := 0,
          found_distributed := true } := by
    unfold insert_line
    rw [if_pos hhead.opens, hhead.indent, unlines_append]
    simp [unlines]
  rw [hopened, insert_kept hin (.inr ⟨rfl, hblock⟩)]
  cases after with
  | nil =>
    simp only [List.foldl_nil, if_true, insert_section hstages]
    simp [unlines]
  | cons line after =>
    rw [List.forall_mem_cons] at hout
    obtain ⟨htrimmed, htext, hcomment⟩ := hafter line rfl
    have hleaves : ∀ result, leaves ⟨result, true, 0, true⟩ line = true := by
      intro result
      unfold leaves
      dsimp only
      rw [htrimmed]
      simp [htext, hcomment]
    have hleft : ∀ result, insert_line (unlines stages) (is_multi_agent config)
        ⟨result, true, 0, true⟩ line =
        ⟨insert_stages_section result (unlines stages) (is_multi_agent config) ++ line ++ ['\n'],
          false, 0, true⟩ := by
      intro result
      unfold insert_line
      simp only [hout.1, hleaves, Bool.false_eq_true, if_false, if_true]
    rw [List.foldl_cons, hleft, insert_kept hout.2 (.inl rfl), insert_section hstages]
    simp [unlines]

/-- The section that a text without one gets. -/
def new_section : List Line :=
  [[], "# Distributed configuration (required for explicit stages)".toList]

def agents_line : Line := "  agents: []  # Empty for standalone configs".toList

theorem insert_none {stages : List Line} {config : Config} {original : List Char}
    (hstages : ∀ l ∈ stages, Printable l)
      (houtside : ∀ l ∈ lines original, opens_distributed l = false) :
    insert_stages_into_yaml original (unlines stages) config =
      unlines (lines original ++ new_section ++ blockLine 0 "distributed" [] ::
        agents_line :: section_lines (is_multi_agent config) stages) := by
  have hcomment : "\n# Distributed configuration (required for explicit stages)\n".toList =
      unlines new_section := by decide
  have hhead : "distributed:\n".toList = blockLine 0 "distributed" [] ++ ['\n'] := by decide
  have hagents : "  agents: []  # Empty for standalone configs\n".toList =
      agents_line ++ ['\n'] := by decide
  unfold insert_stages_into_yaml
  dsimp only
  rw [insert_kept houtside (.inl rfl), hcomment, hhead, hagents]
  simp only [Bool.false_eq_true, if_false, insert_section hstages]
  simp [unlines]

/-! ### Lines of a text in blocks -/

theorem len_dropWhile_le (p : Char → Bool) (l : Line) : len (l.dropWhile p) ≤ len l := by
  induction l with
  | nil => exact Nat.le_refl _
  | cons c l ih =>
    rw [List.dropWhile_cons]
    split
    · unfold len at ih ⊢
      rw [List.map_cons, List.sum_cons]
      omega
    · exact Nat.le_refl _

theorem trim_start_spaces (l : Line) :
    trim_start l = trim_start (l.dropWhile fun c => decide (c = ' ')) := by
  induction l with
  | nil => rfl
  | cons c l ih =>
    rw [List.dropWhile_cons]
    split
    · rename_i hspace
      have hc : isWhitespace c = true := by
        rw [of_decide_eq_true hspace]
        decide
      rw [← ih]
      unfold trim_start
      rw [List.dropWhile_cons_of_pos hc]
    · rfl

theorem stays_of_neutral (h : neutral l = true) : Stays l := by
  unfold neutral at h
  unfold Stays
  rw [trim_start_spaces]
  split at h
  · rename_i hrest
    rw [hrest]
    exact .inl rfl
  · rename_i c rest hrest
    rw [hrest, of_decide_eq_true h]
    exact .inr (.inl rfl)

theorem stays_of_column (h : 0 < column l) : Stays l := by
  cases l with
  | nil => exact absurd h (by decide)
  | cons c l =>
    have hspace : c = ' ' := by
      by_contra hc
      rw [column, List.takeWhile_cons_of_neg (by simpa using hc)] at h
      cases h
    have hless : len (trim_start (c :: l)) < len (c :: l) := by
      have hle : len (trim_start l) ≤ len l := len_dropWhile_le isWhitespace l
      have hcons : len (c :: l) = 1 + len l := by
        rw [hspace]
        rfl
      have htrim : trim_start (c :: l) = trim_start l := by
        unfold trim_start
        rw [hspace, List.dropWhile_cons_of_pos (by decide)]
      rw [hcons, htrim]
      omega
    exact .inr (.inr (by omega))

theorem leaving_of (h : entryStart 0 l = true) (hstart : ∀ c ∈ l.head?, isWhitespace c = false) :
    Leaving l := by
  cases l with
  | nil => cases h
  | cons c l =>
    have hc := hstart c rfl
    have hne : c ≠ '#' := by
      rintro rfl
      cases h
    refine ⟨?_, List.cons_ne_nil _ _, by simpa using hne⟩
    unfold trim_start
    rw [List.dropWhile_cons_of_neg (by simp [hc])]

theorem margin_of (note : List Char) : Margin (blockLine 0 "distributed" note) := by
  have htrim : trim_start (blockLine 0 "distributed" note) = blockLine 0 "distributed" note := rfl
  constructor
  · unfold opens_distributed
    rw [htrim]
    rfl
  · rw [htrim]
    exact Nat.sub_self _

/-! ## What the stages are read as -/

theorem hint_neutral (first_stage : Bool) : ∀ x ∈ hint first_stage, neutral x = true := by
  cases first_stage <;> decide

theorem hints_annotate (first_stage : Bool) (ls : List Line) :
    ∃ secs, Annotates ls secs ∧ secs.flatMap Section.lines = barrier_hints first_stage ls := by
  induction ls generalizing first_stage with
  | nil => exact ⟨[], ⟨rfl, nofun⟩, rfl⟩
  | cons l ls ih =>
    rw [barrier_hints]
    split
    · obtain ⟨secs, hsecs, hlines⟩ := ih false
      refine ⟨⟨l, hint first_stage⟩ :: secs, ⟨by rw [List.map_cons, hsecs.1], ?_⟩, ?_⟩
      · exact List.forall_mem_cons.mpr ⟨hint_neutral first_stage, hsecs.2⟩
      · rw [List.flatMap_cons, Section.lines, hlines]
        rfl
    · obtain ⟨secs, hsecs, hlines⟩ := ih first_stage
      refine ⟨⟨l, []⟩ :: secs, ⟨by rw [List.map_cons, hsecs.1], ?_⟩, ?_⟩
      · exact List.forall_mem_cons.mpr ⟨List.forall_mem_nil _, hsecs.2⟩
      · rw [List.flatMap_cons, Section.lines, hlines]
        rfl

theorem hinted_annotates (multi : Bool) (ls : List Line) :
    ∃ secs, Annotates ls secs ∧ secs.flatMap Section.lines = hinted multi ls := by
  cases multi with
  | true => exact hints_annotate true ls
  | false =>
    refine ⟨ls.map fun l => ⟨l, []⟩, ⟨?_, ?_⟩, ?_⟩
    · rw [List.map_map]
      exact List.map_id ls
    · intro s hs
      obtain ⟨l, _, rfl⟩ := List.mem_map.mp hs
      exact nofun
    · rw [List.flatMap_map]
      exact List.flatMap_singleton' ls

theorem gap_neutral (multi : Bool) : ∀ x ∈ gap multi, neutral x = true := by
  cases multi <;> decide

/-- The stages are a sequence of the values of each. -/
theorem stages_section {leaf : Nat → Reader}
    (hleaf : ∀ k s e, plain k s = some e → leaf k s = some e)
    {stages : List StageConfig} (hne : stages ≠ []) (h : ∀ s ∈ stages, Generated s) (multi : Bool) :
    let t : Section := ⟨stages_line, hinted multi (stages.flatMap stage_lines)⟩
    t.Of (entryStart 2) ∧ column t.head = 2 ∧
      inner leaf 2 t = some ("stages", .seq ((stages.map stage_values).map .map)) := by
  have htold : List.Forall₂ SaysAll (stages.map stage_fields) (stages.map stage_values) := by
    clear hne
    induction stages with
    | nil => exact .nil
    | cons s stages ih =>
      rw [List.forall_mem_cons] at h
      exact .cons (says_stage h.1) (ih h.2)
  have hitems : stages.flatMap stage_lines = (stages.map stage_fields).flatMap (itemLines 2) := by
    rw [List.flatMap_map]
    exact List.flatMap_congr fun s hs => stage_lines_eq (h s hs)
  obtain ⟨secs, hsecs, hlines⟩ := hinted_annotates multi (stages.flatMap stage_lines)
  rw [hitems] at hsecs
  have hfound : stages.map stage_fields ≠ [] := fun hnil => hne (List.map_eq_nil_iff.mp hnil)
  have hkey : Named "stages" := named_of rfl rfl
  have hshape := block_shape (k := 2) hkey []
  rw [← hlines]
  refine ⟨⟨hshape.2.2, items_within htold hsecs⟩, hshape.1, ?_⟩
  apply inner_items hkey ⟨rfl, rfl⟩ (below_items htold hfound hsecs) (Nat.le_refl 2)
  exact items_fields (hleaf 4) htold hfound hsecs

theorem stages_printable {stages : List StageConfig} (h : ∀ s ∈ stages, Generated s) :
    ∀ l ∈ stages.flatMap stage_lines, Printable l := by
  intro l hl
  obtain ⟨s, hs, hl⟩ := List.mem_flatMap.mp hl
  rw [stage_lines_eq (h s hs)] at hl
  exact printable_item (says_stage (h s hs)) l hl

/-! ## What the new text is read as -/

/-- A section at the left margin with its fields two columns in. None of these is a key of
stages, and the last one is not changed by the lines that follow it. -/
structure Block (leaf : Nat → Reader) (multi : Bool) (note : List Char) (block after : List Line)
    (fields : List (String × Value)) : Prop where
  note : Note note
  below : below block = some 2
  reads : mapping (inner leaf 2) 2 block = some fields
  fresh : "stages" ∉ fields.map Prod.fst
  last : ∀ s ∈ (sections (entryStart 2) block).2.getLast?,
    inner leaf 2 ⟨s.head, s.body ++ gap multi⟩ = inner leaf 2 s
  next : ∀ l ∈ after.head?, entryStart 0 l = true ∧ ∀ c ∈ l.head?, isWhitespace c = false

theorem entryStart_below {x : Line} (h : neutral x = true ∨ 2 ≤ column x) :
    entryStart 0 x = false := by
  rcases h with h | h
  · exact entryStart_neutral h
  · unfold entryStart
    rw [decide_eq_false (by omega : ¬column x ≤ 0)]
    simp

/-- The fields of the section and the stages. -/
theorem block_document {leaf : Nat → Reader}
    (hleaf : ∀ k s e, plain k s = some e → leaf k s = some e)
    {note : List Char} {fields es : List (String × Value)}
      (h : Block leaf multi note block after fields)
    {stages : List StageConfig} (hne : stages ≠ []) (hstages : ∀ s ∈ stages, Generated s)
    (hes : document leaf (before ++ blockLine 0 "distributed" note :: block ++ after) = some es) :
    ∃ a c, es = a ++ ("distributed", .map fields) :: c ∧
      document leaf (before ++ blockLine 0 "distributed" note ::
          (block ++ section_lines multi (stages.flatMap stage_lines)) ++ after) =
        some (a ++ ("distributed",
          .map (fields ++ [("stages", .seq ((stages.map stage_values).map .map))])) :: c) := by
  have hkey : Named "distributed" := named_of rfl rfl
  obtain ⟨hof, hcolumn, hread⟩ := stages_section hleaf hne hstages multi
  have hafter := flatten_of_head (fun x hx => (h.next x hx).1)
  have hextended := mapping_extend (fun x hx =>
      entryStart_neutral (gap_neutral multi x hx)) hof hcolumn hread
    h.fresh h.last h.reads
  have hlines : block ++ section_lines multi (stages.flatMap stage_lines) = block ++ gap multi ++
      Section.lines ⟨stages_line, hinted multi (stages.flatMap stage_lines)⟩ := by
    rw [section_lines, List.append_assoc]
    rfl
  rw [← hlines] at hextended
  have hhead := (block_shape (k := 0) hkey note).2.2
  have hsection : ∀ {ls fields}, mapping (inner leaf 2) 2 ls = some fields →
      Section.Of (entryStart 0) ⟨blockLine 0 "distributed" note, ls⟩ :=
    fun hls => ⟨hhead, fun x hx => entryStart_below (mapping_columns hls x hx)⟩
  rw [← hafter] at hes ⊢
  rw [List.append_assoc] at hes ⊢
  exact mapping_update (hsection h.reads)
    (hsection hextended) rfl (sections_of (entryStart 0) after).2
    (document_mapping hkey h.note h.below (by decide) h.reads)
    (document_mapping hkey h.note (below_append h.below _) (by decide) hextended) hes

theorem agents_read {leaf : Nat → Reader} (hleaf : ∀ k s e, plain k s = some e → leaf k s = some e)
    {body : List Line} (hbody : ∀ x ∈ body, neutral x = true) :
    inner leaf 2 ⟨agents_line, body⟩ = some ("agents", .seq []) := by
  apply inner_plain hleaf
  have hkeyed : keyed 2 agents_line =
      some ("agents", ' ' :: "[]  # Empty for standalone configs".toList) := by
    decide
  unfold plain
  rw [hkeyed]
  simp only [List.all_eq_true.mpr hbody]
  rfl

/-- The section that a text without one gets has no more than agents and stages. -/
theorem none_document {leaf : Nat → Reader}
    (hleaf : ∀ k s e, plain k s = some e → leaf k s = some e)
    {ls : List Line} {es : List (String × Value)} (hes : document leaf ls = some es)
    (hfresh : "distributed" ∉ es.map Prod.fst)
    (hlast : ∀ s ∈ (sections (entryStart 0) ls).2.getLast?,
      outer leaf ⟨s.head, s.body ++ new_section⟩ = outer leaf s)
    {stages : List StageConfig} (hne : stages ≠ []) (hstages : ∀ s ∈ stages, Generated s)
      (multi : Bool) :
    document leaf (ls ++ new_section ++ blockLine 0 "distributed" [] ::
        agents_line :: section_lines multi (stages.flatMap stage_lines)) =
      some (es ++ [("distributed", .map [("agents", .seq []),
        ("stages", .seq ((stages.map stage_values).map .map))])]) := by
  obtain ⟨hof, hcolumn, hread⟩ := stages_section hleaf hne hstages multi
  have hkey : Named "distributed" := named_of rfl rfl
  have hnew : ∀ x ∈ new_section, entryStart 0 x = false := by decide
  have hagents : mapping (inner leaf 2) 2 [agents_line] = some [("agents", .seq [])] := by
    have hsection : Section.Of (entryStart 2) ⟨agents_line, []⟩ := ⟨by decide, nofun⟩
    apply @mapping_flatten _ _ _ [⟨agents_line, []⟩] (by simp)
    · exact List.forall_mem_singleton.mpr hsection
    · exact List.forall_mem_singleton.mpr (by decide)
    · rw [List.mapM_cons, agents_read hleaf (by simp)]
      rfl
    · simp
  have hfields : mapping (inner leaf 2) 2
      (agents_line :: section_lines multi (stages.flatMap stage_lines)) =
      some [("agents", .seq []), ("stages", .seq ((stages.map stage_values).map .map))] := by
    refine mapping_extend (fun x hx =>
      entryStart_neutral (gap_neutral multi x hx)) hof hcolumn hread
      (by simp) ?_ hagents
    intro s hs
    have hs : s = ⟨agents_line, []⟩ := by
      have hsections : (sections (entryStart 2) [agents_line]).2.getLast? =
          some ⟨agents_line, []⟩ := rfl
      rw [hsections] at hs
      exact (Option.some.inj hs).symm
    rw [hs]
    exact (agents_read hleaf (gap_neutral multi)).trans (agents_read hleaf (by simp)).symm
  have hbelow : below (agents_line :: section_lines multi (stages.flatMap stage_lines)) = some 2 :=
    below_cons (by decide)
  have hshape := block_shape (k := 0) hkey []
  refine mapping_extend hnew ⟨hshape.2.2, ?_⟩ hshape.1
    (document_mapping hkey ⟨rfl, rfl⟩ hbelow (by decide) hfields) hfresh hlast hes
  exact fun x hx => entryStart_below (mapping_columns hfields x hx)

/-! ### Its lines are printable -/

theorem hints_printable (first_stage : Bool) (h : ∀ l ∈ ls, Printable l) :
    ∀ l ∈ barrier_hints first_stage ls, Printable l := by
  have hhint : ∀ first_stage, ∀ l ∈ hint first_stage, Printable l := by decide
  induction ls generalizing first_stage with
  | nil => nofun
  | cons l ls ih =>
    rw [List.forall_mem_cons] at h
    rw [barrier_hints]
    split
    · rw [List.forall_mem_cons, List.forall_mem_append]
      exact ⟨h.1, hhint first_stage, ih false h.2⟩
    · rw [List.forall_mem_cons]
      exact ⟨h.1, ih first_stage h.2⟩

theorem section_printable (multi : Bool) (h : ∀ l ∈ ls, Printable l) :
    ∀ l ∈ section_lines multi ls, Printable l := by
  have hgap : ∀ multi, ∀ l ∈ gap multi, Printable l := by decide
  unfold section_lines hinted
  rw [List.forall_mem_append, List.forall_mem_cons]
  refine ⟨hgap multi, by decide, ?_⟩
  split
  · exact hints_printable true h
  · exact h

end sai3_bench.config_converter
