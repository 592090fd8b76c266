import FlatSyntax.Command.Run
import FlatSyntax.Proofs.Diagnostic.Snap
import FlatSyntax.Proofs.Text.Json
import FlatSyntax.Proofs.Tree.Dump

namespace FlatSyntax

theorem Files.text_of_utf8 {files : Files} {path : Text} {s : String}
    (h : files path = .ok s.toUTF8) : files.text path = .ok s.toList := by
  have hdecode : String.fromUTF8? s.toUTF8 = some s := dif_pos s.isValidUTF8
  rw [Files.text, h]
  simp only [Except.bind, hdecode]

/-- A line of a dump is that of a leaf that is no token. -/
def isUnknownLine (l : Text) : Bool :=
  l.takeWhile (· != '@') = ' ' :: ' ' :: NodeType.unknown.name.toList

/-- The type of a leaf can be read off its line. -/
theorem NodeType.takeWhile_leafLine (t : NodeType) (r : Span) (shown : Text) :
    (t.leafLine r shown).takeWhile (· != '@') = ' ' :: ' ' :: t.name.toList := by
  have hname : ∀ c ∈ ' ' :: ' ' :: t.name.toList, (c != '@') = true := by
    intro c hc
    rcases List.mem_cons.mp hc with rfl | hc
    · decide
    rcases List.mem_cons.mp hc with rfl | hc
    · decide
    simpa using (ne_of_mem_name hc).1
  have hcut : t.leafLine r shown =
      (' ' :: ' ' :: t.name.toList) ++ '@' :: (r.describe ++ ' ' :: shown) := by
    simp [leafLine, describe]
  rw [hcut, List.takeWhile_append_of_pos hname, List.takeWhile_cons_of_neg (by simp),
    List.append_nil]

namespace Token

variable {text : Text} {tokens : List Token}

theorem isUnknownLine_line (text : Text) (t : Token) :
    isUnknownLine (t.line text) = decide (t.kind = .error) := by
  have hname : (NodeType.ofKind t.kind).name.toList = NodeType.unknown.name.toList ↔
      t.kind = .error := by
    constructor
    · intro h
      exact NodeType.ofKind_injective (k := .error) (NodeType.name_injective h)
    · intro h
      rw [h]
      rfl
  rw [isUnknownLine, line_eq_leafLine, NodeType.takeWhile_leafLine]
  simp [hname]

theorem filter_isUnknownLine_lines (text : Text) (tokens : List Token) :
    (lines text tokens ++ [[]]).filter isUnknownLine =
      (tokens.filter fun t => t.kind = .error).map (line text) := by
  have hroot : isUnknownLine (NodeType.root.describe (.whole text)) = false := rfl
  have hend : isUnknownLine [] = false := rfl
  have hleaf : isUnknownLine ∘ line text = fun t => decide (t.kind = .error) :=
    funext (isUnknownLine_line text)
  simp [lines, List.filter_map, hroot, hend, hleaf]

theorem complaints_eq_map (text : Text) (tokens : List Token) :
    tokens.filterMap (complaint? text) =
      (tokens.filter fun t => t.kind = .error).map fun t => .unrecognized text t.span := by
  rw [← List.filterMap_eq_map, List.filterMap_filter]
  apply List.filterMap_congr
  intro t _
  simp [complaint?]

theorem line_mem_lines {t : Token} (h : t ∈ tokens) : t.line text ∈ lines text tokens :=
  List.mem_cons_of_mem _ (List.mem_map_of_mem h)

/-- Where no leaf is empty, the lines of two leaves never name the same place. -/
theorem eq_line_of_mem_lines (hw : WellFormed text tokens)
    (hsolid : ∀ t ∈ tokens, t.span.start < t.span.stop) {t : Token} (ht : t ∈ tokens)
    {type : NodeType} {shown : Text} (h : type.leafLine t.span shown ∈ lines text tokens) :
    type.leafLine t.span shown = t.line text := by
  rcases List.mem_cons.mp h with hroot | hleaf
  · exact absurd (List.cons.inj hroot).1 (by decide)
  · obtain ⟨u, hu, hline⟩ := List.mem_map.mp hleaf
    obtain ⟨-, hspan, -⟩ := NodeType.leafLine_inj (hline : _ = type.leafLine t.span shown)
    have hto := hsolid t ht
    have heq : u = t := by
      apply hw.eq_of_overlap hu ht (o := t.span.start)
      · rw [hspan]
        exact ⟨Nat.le_refl _, hto⟩
      · exact ⟨Nat.le_refl _, hto⟩
    rw [← hline, heq]

end Token

namespace Command

theorem onFile_of_utf8 {files : Files} {path : Text} {s : String} (h : files path = .ok s.toUTF8)
    (f : Text → Outcome) : onFile files path f = f s.toList := by
  rw [onFile, Files.text_of_utf8 h]

/-- The tokens of a text are never refused, so both ways to make its tree show the same. -/
theorem treeOutcome_eq (path text : Text) (strict raw : Bool) :
    treeOutcome path text strict raw =
      ⟨0, if raw then lines ((parse text).records.map recordLine) else (parse text).dump, []⟩ := by
  have hbuild : Tree.buildUnder (if strict then .reject else .normalize) text (tokenize text) =
      .ok (parse text) := by
    rw [parse_eq_build]
    cases strict with
    | true => exact Tree.buildUnder_reject_of_wellFormed (wellFormed_tokenize text)
    | false => rfl
  rw [treeOutcome, hbuild]

theorem newline_not_mem_highlightLine (text : Text) (h : Highlight) :
    '\n' ∉ highlightLine text h := by
  have hname : '\n' ∉ h.style.name.toList := by
    cases h.style <;> decide
  simp [highlightLine, Span.newline_not_mem_describe, hname, Text.newline_not_mem_quoted]

theorem splitOn_highlightLines (text : Text) (hs : List Highlight) :
    (lines (hs.map (highlightLine text))).splitOn '\n' = hs.map (highlightLine text) ++ [[]] := by
  apply Text.splitOn_lines
  intro l hl
  obtain ⟨h, -, rfl⟩ := List.mem_map.mp hl
  exact newline_not_mem_highlightLine text h

theorem splitOn_dump_parse {text : Text} (hfew : (tokenize text).length < Tree.leafLimit) :
    (parse text).dump.splitOn '\n' = Token.lines text (tokenize text) ++ [[]] := by
  rw [parse_eq_ofTokens]
  exact Tree.splitOn_dump_ofTokens text hfew

end Command

/-- A highlight is listed with the text of its stretch, as a line and as an object, and a dump shows
that text too: on one line for a leaf of the highlight's style, and on no other line for the same
stretch. -/
structure Highlight.Shown (h : Highlight) (text : Text) (dump : List Text) (m : Text)
    (type : NodeType) : Prop where
  slice : h.span.slice? text = some m
  style : type.style = some h.style
  listed : Command.highlightLine text h =
    h.span.describe ++ ' ' :: h.style.name.toList ++ ' ' :: Text.quoted m
  object : "    \"text\": ".toList ++ Text.jsonString m <:+: Command.highlightObject text h
  leaf : type.leafLine h.span (Text.quoted m) ∈ dump
  alone : ∀ other shown, other.leafLine h.span shown ∈ dump →
    other = type ∧ shown = Text.quoted m

/-- What an object says of a highlight: where it is, how it is shown and the text of its stretch. -/
def Highlight.members (text : Text) (h : Highlight) : List (String × JsonToken) :=
  [("start", .number h.span.start), ("end", .number h.span.stop),
   ("tag", .string h.style.name.toList), ("text", .string ((h.span.slice? text).getD []))]

/-- A complaint quotes the text that a line of a dump shows for what is no token, and is about the
same stretch. -/
def Diagnostic.IsAbout (d : Diagnostic) (text line : Text) : Prop :=
  ∃ m, d.span.slice? text = some m ∧ d.message = "unrecognized token `".toList ++ m ++ ['`'] ∧
    line = NodeType.unknown.leafLine d.span (Text.quoted m)

/-- The complaint is drawn over the very stretch that it is about, and to snap the stretch first
changes nothing. -/
def Diagnostic.IsDrawn (d : Diagnostic) (path text out : Text) : Prop :=
  drawSnippet? Row.styled d path text = some out ∧
    (text.size < UInt32.size → d.render? (drawSnippet? Row.styled) path text = some out)

theorem Diagnostic.PointsExactly.isDrawn {d : Diagnostic} {text : Text} (h : d.PointsExactly text)
    (path : Text) : d.IsDrawn path text (d.renderStyled path text) := by
  constructor
  · rw [drawSnippet?, Excerpt.cut?_of_fits ⟨h.inside, h.aligned⟩]
    rfl
  · intro hsize
    exact render?_drawSnippet? hsize Row.styled d path

namespace Command

section Objects

open JsonToken

theorem spells_highlightObject (text : Text) (h : Highlight) :
    Spells (highlightObject text h) (object (h.members text)) := by
  have hlines : object (h.members text) = List.intercalate []
      [[openObject],
       [string "start".toList, colon, number h.span.start, comma],
       [string "end".toList, colon, number h.span.stop, comma],
       [string "tag".toList, colon, string h.style.name.toList, comma],
       [string "text".toList, colon, string ((h.span.slice? text).getD [])],
       [closeObject]] := rfl
  have hindent : Spells [' ', ' '] [] := spells_blanks rfl
  have hopen : Spells ['\x7b'] [openObject] := spells_mark rfl
  have hclose : Spells ['\x7d'] [closeObject] := spells_mark rfl
  have hcomma : Spells [','] [comma] := spells_mark rfl
  have hstart := (spells_key "start").append (spells_decimal h.span.start)
  have hstop := (spells_key "end").append (spells_decimal h.span.stop)
  have htag := ((spells_key "tag").append (spells_string h.style.name.toList)).append hcomma
  have htext := (spells_key "text").append (spells_string ((h.span.slice? text).getD []))
  rw [← List.append_assoc] at hstart hstop
  rw [hlines, highlightObject]
  apply (spells_blanks rfl).intercalate
  exact .cons (hindent.append hopen) (.cons hstart (.cons hstop (.cons htag (.cons htext
    (.cons (hindent.append hclose) .nil)))))

theorem spells_highlightArray (text : Text) (hs : List Highlight) :
    Spells (highlightArray text hs) (array (hs.map fun h => object (h.members text))) := by
  have hbreak : Spells ['\n'] [] := spells_blanks rfl
  have hopen : Spells ['['] [openArray] := spells_mark rfl
  have hclose : Spells [']'] [closeArray] := spells_mark rfl
  have hcomma : Spells [','] [comma] := spells_mark rfl
  cases hs with
  | nil => exact hopen.append hclose
  | cons h hs =>
    have hobjects : List.Forall₂ Spells ((h :: hs).map (highlightObject text))
        ((h :: hs).map fun h => object (h.members text)) := by
      rw [List.forall₂_map_left_iff, List.forall₂_map_right_iff, List.forall₂_same]
      exact fun h _ => spells_highlightObject text h
    have hitems := (hcomma.append hbreak).intercalate hobjects
    exact ((hopen.append hbreak).append hitems).append (hbreak.append hclose)

end Objects

theorem stdout_highlightOutcome_json (text : Text) :
    (highlightOutcome text true).stdout = highlightArray text (parse text).highlight ++ ['\n'] := by
  simp [highlightOutcome, lines]

theorem shown_of_mem_highlight {text : Text} {h : Highlight} (hh : h ∈ (parse text).highlight) :
    ∃ m type, h.Shown text (Token.lines text (tokenize text) ++ [[]]) m type := by
  have hw := wellFormed_tokenize text
  have hsolid := (scan_tokenize text).start_lt_stop
  rw [(consumed_parse text).highlights] at hh
  obtain ⟨t, ht, hsome⟩ := List.mem_filterMap.mp hh
  obtain ⟨hstyle, hspan⟩ := Token.highlight?_eq_some_iff.mp hsome
  obtain ⟨m, hm⟩ := Token.Placed.exists_slice? (hw.aligned t ht)
  have hslice : h.span.slice? text = some m := by
    rw [hspan]
    exact hm
  have hline : t.line text = (NodeType.ofKind t.kind).leafLine h.span (Text.quoted m) := by
    rw [Token.line_eq_leafLine, ← hspan, hslice, Option.getD_some]
  refine ⟨m, NodeType.ofKind t.kind, ?_⟩
  constructor
  case slice => exact hslice
  case style =>
    rw [style_ofKind]
    exact hstyle
  case listed => rw [highlightLine, hslice, Option.getD_some]
  case object =>
    rw [highlightObject, hslice, Option.getD_some, List.intercalate]
    apply List.infix_of_mem_flatten
    simp
  case leaf =>
    rw [← hline]
    exact List.mem_append_left _ (Token.line_mem_lines ht)
  case alone =>
    intro other shown hmem
    have hmem : other.leafLine t.span shown ∈ Token.lines text (tokenize text) := by
      rw [← hspan]
      rcases List.mem_append.mp hmem with hmem | hend
      · exact hmem
      · exact absurd (List.mem_singleton.mp hend) (List.cons_ne_nil _ _)
    have heq := Token.eq_line_of_mem_lines hw hsolid ht hmem
    rw [hline] at heq
    obtain ⟨htype, -, hshown⟩ := NodeType.leafLine_inj heq
    exact ⟨htype, hshown⟩

theorem forall₂_isAbout (text : Text) :
    List.Forall₂ (fun d l => d.IsAbout text l) (parse text).diagnostics
      ((Token.lines text (tokenize text) ++ [[]]).filter isUnknownLine) := by
  have hw := wellFormed_tokenize text
  rw [(consumed_parse text).diagnostics, text_parse, Token.complaints_eq_map,
    Token.filter_isUnknownLine_lines, List.forall₂_map_left_iff, List.forall₂_map_right_iff,
    List.forall₂_same]
  intro t ht
  obtain ⟨ht, hkind⟩ := List.mem_filter.mp ht
  obtain ⟨m, hslice⟩ := Token.Placed.exists_slice? (hw.aligned t ht)
  have herror : t.kind = .error := of_decide_eq_true hkind
  refine ⟨m, hslice, Diagnostic.message_unrecognized hslice, ?_⟩
  rw [Token.line_eq_leafLine, hslice, herror]
  rfl

/-- The lines of a dump that are for what is no token are as many as the complaints. -/
theorem isEmpty_diagnostics (text : Text) :
    (parse text).diagnostics.isEmpty =
      !(Token.lines text (tokenize text) ++ [[]]).any isUnknownLine := by
  have hlength := (forall₂_isAbout text).length_eq
  rw [← List.countP_eq_length_filter] at hlength
  rw [Bool.eq_iff_iff, List.isEmpty_iff_length_eq_zero, hlength, List.countP_eq_zero,
    Bool.not_eq_true', List.any_eq_false]

/-- The lines that show the tree of a file. -/
def treeLines (files : Files) (path : Text) : List Text :=
  (run files (.tree path false false)).stdout.splitOn '\n'

theorem treeLines_of_utf8 {files : Files} {path : Text} {s : String}
    (hfile : files path = .ok s.toUTF8) (hfew : (tokenize s.toList).length < Tree.leafLimit) :
    treeLines files path = Token.lines s.toList (tokenize s.toList) ++ [[]] := by
  rw [treeLines, run, onFile_of_utf8 hfile, treeOutcome_eq]
  exact splitOn_dump_parse hfew

/-- The commands on a file tell the same about it: both ways to make its tree, what is highlighted,
as lines and as objects, and the lines of the tree, and what is complained about, each complaint
drawn once, and the lines for what is no token. -/
structure Agreement (files : Files) (path text : Text) : Prop where
  policies (strict raw : Bool) :
    run files (.tree path strict raw) = ⟨0, (run files (.tree path false raw)).stdout, []⟩
  accepted (json : Bool) : (run files (.highlight path json)).code = 0
  listed : (run files (.highlight path false)).stdout.splitOn '\n' =
    (parse text).highlight.map (highlightLine text) ++ [[]]
  array : (run files (.highlight path true)).stdout =
    highlightArray text (parse text).highlight ++ ['\n']
  objects : JsonToken.read? (run files (.highlight path true)).stdout =
    some (JsonToken.array ((parse text).highlight.map fun h => JsonToken.object (h.members text)))
  shown : ∀ h ∈ (parse text).highlight, ∃ m type, h.Shown text (treeLines files path) m type
  verdict : (run files (.check path)).code =
    if (treeLines files path).any isUnknownLine then 1 else 0
  reported : ∃ drawn, (run files (.check path)).stderr = lines drawn ∧
    List.Forall₂ (fun d out => d.IsDrawn path text out) (parse text).diagnostics drawn
  oneEach : List.Forall₂ (fun d l => d.IsAbout text l) (parse text).diagnostics
    ((treeLines files path).filter isUnknownLine)

/-- For a file in UTF-8 with fewer than 2^30 - 1 tokens a tree is shown in either way, what is
highlighted stands in it with its text, and the check fails exactly if a leaf of it is no token,
with one complaint for each such leaf. -/
theorem commands_agree {files : Files} {path : Text} {s : String}
    (hfile : files path = .ok s.toUTF8) (hfew : (tokenize s.toList).length < Tree.leafLimit) :
    Agreement files path s.toList := by
  have htree (strict raw : Bool) :
      run files (.tree path strict raw) = treeOutcome path s.toList strict raw :=
    onFile_of_utf8 hfile _
  have hhighlight (json : Bool) :
      run files (.highlight path json) = highlightOutcome s.toList json :=
    onFile_of_utf8 hfile _
  have hcheck : run files (.check path) = checkOutcome path s.toList :=
    onFile_of_utf8 hfile _
  have hdump := treeLines_of_utf8 hfile hfew
  constructor
  case policies =>
    intro strict raw
    rw [htree, htree, treeOutcome_eq, treeOutcome_eq]
  case listed =>
    rw [hhighlight]
    exact splitOn_highlightLines _ _
  case array =>
    rw [hhighlight]
    exact stdout_highlightOutcome_json s.toList
  case objects =>
    have hbreak : JsonToken.Spells ['\n'] [] := JsonToken.spells_blanks rfl
    have hspells := (spells_highlightArray s.toList (parse s.toList).highlight).append hbreak
    rw [List.append_nil] at hspells
    rw [hhighlight, stdout_highlightOutcome_json]
    exact hspells.read?_eq
  case accepted =>
    intro json
    rw [hhighlight]
    rfl
  case shown =>
    intro h hh
    rw [hdump]
    exact shown_of_mem_highlight hh
  case verdict =>
    rw [hcheck, checkOutcome, isEmpty_diagnostics, hdump]
    cases (Token.lines s.toList (tokenize s.toList) ++ [[]]).any isUnknownLine <;> rfl
  case reported =>
    rw [hcheck]
    refine ⟨(parse s.toList).diagnostics.map fun d => d.renderStyled path s.toList, rfl, ?_⟩
    rw [List.forall₂_map_right_iff, List.forall₂_same]
    intro d hd
    exact (Diagnostic.pointsExactly_of_mem_diagnostics hd).isDrawn path
  case oneEach =>
    rw [hdump]
    exact forall₂_isAbout s.toList

/-- A file with a word and a letter of two bytes that is no token. -/
theorem commands_agree_on_stray_letter :
    let s : String := "x é"
    let files : Files := fun _ => .ok s.toUTF8
    files [] = .ok s.toUTF8 ∧ (tokenize s.toList).length < Tree.leafLimit ∧
      Agreement files [] s.toList ∧ (treeLines files []).any isUnknownLine = true ∧
      (run files (.check [])).code = 1 := by
  intro s files
  have hword : (Scanner.start "x é".toList).next =
      (some ⟨.ident, 0, 1, by decide⟩, ⟨1, " é".toList⟩) := rfl
  have hstray : Scanner.next ⟨1, " é".toList⟩ =
      (some ⟨.error, 2, 4, by decide⟩, ⟨4, []⟩) := rfl
  have hend : Scanner.next ⟨4, []⟩ = (none, ⟨4, []⟩) := rfl
  have htokens : tokenize s.toList = [⟨.ident, 0, 1, by decide⟩, ⟨.error, 2, 4, by decide⟩] := by
    rw [tokenize, Scanner.tokens_of_next_eq_some hword, Scanner.tokens_of_next_eq_some hstray,
      Scanner.tokens_of_next_eq_none hend]
  have hfew : (tokenize s.toList).length < Tree.leafLimit := by
    rw [htokens]
    decide
  have hagree : Agreement files [] s.toList := commands_agree rfl hfew
  have herror : ⟨.error, 2, 4, by decide⟩ ∈ tokenize s.toList := by
    rw [htokens]
    simp
  have hunknown : (treeLines files []).any isUnknownLine = true := by
    rw [treeLines_of_utf8 rfl hfew, List.any_eq_true]
    exact ⟨_, List.mem_append_left _ (Token.line_mem_lines herror), Token.isUnknownLine_line _ _⟩
  refine ⟨rfl, hfew, hagree, hunknown, ?_⟩
  rw [hagree.verdict, hunknown]
  rfl

end Command

end FlatSyntax
