import Exemplar.Proofs.Lookup
import Exemplar.Proofs.Toml.Lines

/-!
# Written tables are read back

A table with plain entries is written as a heading with a line for each entry, and a list of
such tables as one heading for each of them. Read back, a heading opens a place in the tree of
the document, and the entries below it are put there, one behind the other. An entry changes
nothing but the open place (`Opens`), so what entries do is the same wherever they are put. A
document of plain entries and such tables is read back with the plain entries in front
(`read?_write`).

Reading has two halves, and so has the proof. The lines are read as statements, of which each is
an entry or a heading (`ReadsLines`), and the statements are put into a tree one after the other
(`Assembly.add`). The writer puts a blank line between two blocks, and none in front of the
first; blank lines are no statements.

The tree remembers of each table how it came about, since a table must not be stated twice. Here
every name is new where it is put, so no heading meets a table that is there already, unless it
is that of a list, to which it adds an element.
-/

namespace Exemplar.Toml

variable {d : Data} {es : List (String × Data)} {name name' : String}

/-! ## Plain values

What the program writes on one line. A list that is not empty could be one of tables, but a list
of strings is not. -/

/-- Data that is written behind its name on one line. -/
inductive Plain : Data → Prop
  /-- A string. -/
  | string (s : String) : Plain (.string s)
  /-- A list of strings. -/
  | strings (l : List String) : Plain (Data.strings l)
  /-- A whole number of 64 bits. -/
  | int {n : Int} (hn : Fits n) : Plain (.int n)
  /-- A truth value. -/
  | bool (b : Bool) : Plain (.bool b)

/-- What plain data is read back as. -/
def plainValue : Data → Value
  | .list items => .array (items.map .scalar)
  | d => .scalar d

/-- The value is turned into the data it was written for. -/
theorem toData?_plainValue (d : Data) : (plainValue d).toData? = some d := by
  have hitems : ∀ items : List Data, itemsToData? (items.map .scalar) = some items := by
    intro items
    induction items with
    | nil => rfl
    | cons d rest ih => rw [List.map_cons, itemsToData?, ih]; rfl
  cases d with
  | list items => rw [plainValue, Value.toData?, hitems]; rfl
  | _ => rfl

/-- Each sort of plain data is read back by its lemma. -/
theorem Plain.readsValue (h : Plain d) : ReadsValue d (plainValue d) := by
  cases h with
  | string s => exact readsValue_string s
  | strings l =>
    have hread := readsValue_strings l
    have hmap : l.map (fun s => Value.scalar (.string s)) = (l.map Data.string).map .scalar := by
      rw [List.map_map]
      rfl
    rwa [hmap] at hread
  | int hn => exact readsValue_int hn
  | bool b => exact readsValue_bool b

/-- Plain data is written neither below a heading of its own nor below several. -/
theorem Plain.not_tables (h : Plain d) : isTable d = false ∧ isTables d = false := by
  cases h with
  | strings l => cases l <;> exact ⟨rfl, rfl⟩
  | _ => exact ⟨rfl, rfl⟩

/-! ## Lines of a table

From lines to statements. A block is a heading and the lines below it. -/

/-- Entries that are written on a line each. -/
def PlainEntries (es : List (String × Data)) : Prop := ∀ e ∈ es, IsBareName e.1 ∧ Plain e.2

/-- No entries are plain entries. -/
theorem PlainEntries.nil : PlainEntries [] := List.forall_mem_nil _

/-- One more plain entry in front. -/
theorem PlainEntries.cons (hname : IsBareName name) (hd : Plain d) (h : PlainEntries es) :
    PlainEntries ((name, d) :: es) :=
  List.forall_mem_cons.2 ⟨⟨hname, hd⟩, h⟩

/-- The statements entries are read back as. -/
def entryStatements (es : List (String × Data)) : List Statement :=
  es.map fun e => .entry [e.1] (plainValue e.2)

/-- Each entry is a line, and the line is read as a statement. -/
theorem readsLines_plainLines (h : PlainEntries es) :
    ReadsLines (plainLines es) (entryStatements es) := by
  induction es with
  | nil => exact .nil
  | cons e es ih =>
    obtain ⟨⟨hname, hplain⟩, hrest⟩ := List.forall_mem_cons.1 h
    have hkeep : (!isTable e.2 && !isTables e.2) = true := by
      rw [hplain.not_tables.1, hplain.not_tables.2]
      rfl
    rw [plainLines, List.filter_cons_of_pos (by exact hkeep)]
    exact .cons (readsLine_entry hname hplain.readsValue) (ih hrest)

/-- Plain entries need no block of their own. -/
theorem blocks_of_plain (h : PlainEntries es) (path : List String) : blocks path es = [] := by
  induction es with
  | nil => rfl
  | cons e es ih =>
    obtain ⟨⟨-, hplain⟩, hrest⟩ := List.forall_mem_cons.1 h
    obtain ⟨name, d⟩ := e
    rw [blocks, ih hrest, List.append_nil]
    cases hplain with
    | strings l => cases l <;> rfl
    | _ => rfl

/-- The lines of some entries and those of the others behind them. -/
theorem plainLines_append (es more : List (String × Data)) :
    plainLines (es ++ more) = plainLines es ++ plainLines more := by
  rw [plainLines, List.filter_append, List.map_append]
  rfl

/-- The blocks of some entries and those of the others behind them. -/
theorem blocks_append (path : List String) (es more : List (String × Data)) :
    blocks path (es ++ more) = blocks path es ++ blocks path more := by
  induction es with
  | nil => rfl
  | cons e es ih =>
    obtain ⟨name, d⟩ := e
    rw [List.cons_append, blocks, blocks, ih, List.append_assoc]

/-- Without a block no blank line is put behind the lines. -/
theorem withBlocks_nil (lines : List String) : withBlocks lines [] = lines := by
  rw [withBlocks, if_pos (by rw [List.isEmpty_nil, Bool.or_true]), separated, List.append_nil]

/-- Blocks that are read back are read one after the other, whatever blank lines stand between
them. -/
theorem readsLines_separated {blocks : List (List String)} {statements : List (List Statement)}
    (h : List.Forall₂ ReadsLines blocks statements) :
    ReadsLines (separated blocks) statements.flatten := by
  induction h with
  | nil => exact .nil
  | @cons b s blocks statements hb hrest ih =>
    cases blocks with
    | nil =>
      cases hrest
      rw [List.flatten_cons, List.flatten_nil, List.append_nil]
      exact hb
    | cons b' blocks => exact hb.append (.blank ih)

/-- A blank line is put between the lines and the blocks only if there are both. -/
theorem readsLines_withBlocks {lines : List String} {blocks : List (List String)}
    {statements : List Statement} {more : List (List Statement)}
    (h : ReadsLines lines statements)
    (hblocks : List.Forall₂ ReadsLines blocks more) :
    ReadsLines (withBlocks lines blocks) (statements ++ more.flatten) := by
  rw [withBlocks]
  split
  · exact h.append (readsLines_separated hblocks)
  · exact h.append (.blank (readsLines_separated hblocks))

/-- **A table of plain entries is read back.** It is one block, with its heading in front. -/
theorem forall₂_block (hname : IsBareName name) (h : PlainEntries es) :
    List.Forall₂ ReadsLines (block [name] (.record es))
    [.table [name] :: entryStatements es] := by
  rw [block, blocks_of_plain h, withBlocks_nil]
  exact .cons (.cons (readsLine_table hname) (readsLines_plainLines h)) .nil

/-- The statements a list of tables is read back as. -/
def elementStatements (path : List String) (elements : List (List (String × Data))) :
    List (List Statement) :=
  elements.map fun es => .element path :: entryStatements es

/-- **A list of tables of plain entries is read back.** Each element is a block with the same
heading. -/
theorem forall₂_elements (hname : IsBareName name) (hname' : IsBareName name')
    {list : List (List (String × Data))} (h : ∀ es ∈ list, PlainEntries es) :
    List.Forall₂ ReadsLines (elements [name, name'] (list.map .record))
      (elementStatements [name, name'] list) := by
  induction list with
  | nil => exact .nil
  | cons es list ih =>
    obtain ⟨hes, hrest⟩ := List.forall_mem_cons.1 h
    rw [List.map_cons, elements, blocks_of_plain hes, withBlocks_nil]
    exact .cons (.cons (readsLine_element hname hname') (readsLines_plainLines hes)) (ih hrest)

/-! ## Trees with fresh names

An entry whose name is new goes to the end, and there it can be changed again. -/

namespace Entries

variable {entries : Entries} {n m : Node}

/-- A new name is not found. -/
theorem get?_of_notMem (h : name ∉ entries.map (·.1)) : Entries.get? entries name = none :=
  lookup_of_notMem h

/-- Setting an entry is what it is for every list of named things. -/
theorem set_eq_setKey (name : String) (n : Node) (entries : Entries) :
    entries.set name n = setKey name n entries := by
  induction entries with
  | nil => rfl
  | cons e rest ih => rw [show e = (e.1, e.2) from rfl, set, setKey, ih]

/-- An entry with a new name goes to the end. -/
theorem set_of_notMem (h : name ∉ entries.map (·.1)) :
    entries.set name n = entries ++ [(name, n)] :=
  (set_eq_setKey name n entries).trans (setKey_of_notMem h)

/-- It is found there. -/
theorem get?_concat (h : name ∉ entries.map (·.1)) :
    Entries.get? (entries ++ [(name, n)]) name = some n :=
  lookup_concat h

/-- And it can be replaced there. -/
theorem set_concat (h : name ∉ entries.map (·.1)) :
    (entries ++ [(name, n)]).set name m = entries ++ [(name, m)] :=
  (set_eq_setKey name m _).trans (setKey_concat h)

end Entries

/-- Changing the last of a list. -/
theorem changeLast_concat {α : Type} (f : α → Option α) (l : List α) (a : α) :
    changeLast f (l ++ [a]) = (f a).map fun b => l ++ [b] := by
  induction l with
  | nil => rfl
  | cons b l ih =>
    obtain ⟨c, rest, hcons⟩ : ∃ c rest, l ++ [a] = c :: rest :=
      List.exists_cons_of_ne_nil (List.append_ne_nil_of_right_ne_nil _ (List.cons_ne_nil _ _))
    rw [List.cons_append, hcons, changeLast, ← hcons, ih, Option.map_map]
    rfl

/-! ## Places that are open

Behind a heading, entries are put at the place it has opened: in the root, in a table, or in the
last element of a list of tables. -/

/-- A heading opens a place in a tree: what changes there changes nothing else. -/
def Opens (heading : List String) (tree : Entries → Entries) : Prop :=
  ∀ f sub, changeAt f heading (tree sub) = (f sub).map tree

/-- Before the first heading, the root is open. -/
theorem opens_root : Opens [] id := fun f sub => by
  rw [changeAt, Option.map_id]
  rfl

/-- The heading of a table opens it, and the table is the last of the tree. -/
theorem opens_table {before : Entries} (h : name ∉ before.map (·.1)) (origin : Origin) :
    Opens [name] fun sub => before ++ [(name, Node.table origin sub)] := fun f sub => by
  rw [changeAt, Entries.get?_concat h]
  dsimp only
  rw [Node.change, Option.map_map]
  show ((f sub).map _) = _
  refine congrArg (Option.map · (f sub)) (funext fun sub' => ?_)
  exact Entries.set_concat h

/-- The heading of an element opens the last element of its list. -/
theorem opens_element {before inner : Entries} (h : name ∉ before.map (·.1))
    (h' : name' ∉ inner.map (·.1)) (done : List Entries) (origin : Origin) :
    Opens [name, name'] fun sub =>
      before ++ [(name, Node.table origin (inner ++ [(name', Node.tables (done ++ [sub]))]))] :=
  fun f sub => by
  have houter :=
    opens_table h origin (changeAt f [name']) (inner ++ [(name', Node.tables (done ++ [sub]))])
  have hinner : changeAt f [name'] (inner ++ [(name', Node.tables (done ++ [sub]))]) =
      (f sub).map fun sub => inner ++ [(name', Node.tables (done ++ [sub]))] := by
    rw [changeAt, Entries.get?_concat h']
    dsimp only
    rw [Node.change, changeLast_concat, Option.map_map, Option.map_map]
    refine congrArg (Option.map · (f sub)) (funext fun sub' => ?_)
    exact Entries.set_concat h'
  rw [hinner, Option.map_map] at houter
  exact houter

/-- Some entries as data, and then the others. -/
theorem entriesToData_append (a b : Entries) :
    entriesToData (a ++ b) = entriesToData a ++ entriesToData b := by
  induction a with
  | nil => rfl
  | cons e a ih => exact congrArg ((e.1, e.2.toData) :: ·) ih

/-- Entries as they stand in a tree. -/
def valueEntries (es : List (String × Data)) : Entries := es.map fun e => (e.1, .value e.2)

/-- Entries in a tree stand for the entries they were made of. -/
theorem entriesToData_valueEntries (es : List (String × Data)) :
    entriesToData (valueEntries es) = es := by
  induction es with
  | nil => rfl
  | cons e es ih => exact congrArg (e :: ·) ih

/-- Elements in a tree stand for the tables they were made of. -/
theorem elementsToData_valueEntries (list : List (List (String × Data))) :
    elementsToData (list.map valueEntries) = list.map .record := by
  induction list with
  | nil => rfl
  | cons es list ih =>
    rw [List.map_cons, elementsToData, entriesToData_valueEntries, ih]
    rfl

/-- **Entries are put at the open place**, one behind the other, if their names are new there. -/
theorem foldlM_entryStatements {heading : List String} {tree : Entries → Entries}
    (hopen : Opens heading tree) (number : Nat) (sub : Entries) (es : List (String × Data))
    (hnames : (sub.map (·.1) ++ es.map (·.1)).Nodup) :
    (entryStatements es).foldlM Assembly.add ⟨number, heading, tree sub⟩ =
      some ⟨number, heading, tree (sub ++ valueEntries es)⟩ := by
  induction es generalizing sub with
  | nil => rw [valueEntries, List.map_nil, List.append_nil]; rfl
  | cons e es ih =>
    have hfresh : e.1 ∉ sub.map (·.1) := fun hmem =>
      (List.nodup_append.1 hnames).2.2 e.1 hmem e.1 List.mem_cons_self rfl
    -- The name of the entry is new at the open place, so the entry goes to its end.
    have hassign : assign number e.2 [e.1] sub = some (sub ++ [(e.1, Node.value e.2)]) := by
      rw [assign, Entries.get?_of_notMem hfresh, Entries.set_of_notMem hfresh]
    have hadd : Assembly.add ⟨number, heading, tree sub⟩ (.entry [e.1] (plainValue e.2)) =
        some ⟨number, heading, tree (sub ++ [(e.1, Node.value e.2)])⟩ := by
      rw [Assembly.add, toData?_plainValue]
      show (changeAt (assign number e.2 [e.1]) heading (tree sub)).bind _ = _
      rw [hopen, hassign]
      rfl
    have hrest := ih (sub ++ [(e.1, Node.value e.2)]) (by
      rw [List.map_append, List.append_assoc]
      exact hnames)
    rw [entryStatements, List.map_cons, List.foldlM_cons, hadd]
    rw [List.append_assoc] at hrest
    exact hrest

/-- **A table is put behind the others** if its name is new. -/
theorem foldlM_table (number : Nat) (heading : List String) {before : Entries}
    (hname : name ∉ before.map (·.1)) (hnames : (es.map (·.1)).Nodup) :
    (Statement.table [name] :: entryStatements es).foldlM Assembly.add
      ⟨number, heading, before⟩ =
      some ⟨number + 1, [name], before ++ [(name, Node.table .stated (valueEntries es))]⟩ := by
  have hadd : Assembly.add ⟨number, heading, before⟩ (.table [name]) =
      some ⟨number + 1, [name], before ++ [(name, Node.table .stated [])]⟩ := by
    rw [Assembly.add, openTable, Entries.get?_of_notMem hname, Entries.set_of_notMem hname]
    rfl
  rw [List.foldlM_cons, hadd]
  exact foldlM_entryStatements (opens_table hname .stated) (number + 1) [] es hnames

/-- The entries of a table with a list of tables behind them, if there are elements. -/
def withTables (inner : Entries) (name : String) (done : List Entries) : Entries :=
  if done = [] then inner else inner ++ [(name, Node.tables done)]

theorem withTables_concat (inner : Entries) (name : String)
    (done : List Entries) (sub : Entries) :
    withTables inner name (done ++ [sub]) = inner ++ [(name, Node.tables (done ++ [sub]))] :=
  if_neg (List.append_ne_nil_of_right_ne_nil _ (List.cons_ne_nil _ _))

/-- A heading of an element opens the next one. The first element makes the list, and any other
one goes to its end. -/
theorem openElement_withTables {before inner : Entries} (h : name ∉ before.map (·.1))
    (h' : name' ∉ inner.map (·.1)) (done : List Entries) (origin : Origin) :
    openElement [name, name']
      (before ++ [(name, Node.table origin (withTables inner name' done))]) =
      some (before ++ [(name, Node.table origin (withTables inner name' (done ++ [[]])))]) := by
  have hinner : openElement [name'] (withTables inner name' done) =
      some (withTables inner name' (done ++ [[]])) := by
    rw [withTables_concat, openElement]
    by_cases hdone : done = []
    · rw [withTables, if_pos hdone, hdone, Entries.get?_of_notMem h', Entries.set_of_notMem h']
      rfl
    · rw [withTables, if_neg hdone, Entries.get?_concat h']
      dsimp only
      rw [Entries.set_concat h']
  rw [openElement, Entries.get?_concat h]
  dsimp only
  rw [Node.change, hinner]
  exact congrArg some (Entries.set_concat h)

/-- **The elements of a list of tables are put behind the others**, each with its entries. For
each element a place is opened and filled with its entries. -/
theorem foldlM_elementStatements {before inner : Entries} (h : name ∉ before.map (·.1))
    (h' : name' ∉ inner.map (·.1)) (list : List (List (String × Data)))
    (hnames : ∀ es ∈ list, (es.map (·.1)).Nodup) (number : Nat) (heading : List String)
    (done : List Entries) :
    ∃ number' heading', (elementStatements [name, name'] list).flatten.foldlM Assembly.add
        ⟨number, heading, before ++ [(name, Node.table .stated (withTables inner name' done))]⟩ =
      some ⟨number', heading', before ++
        [(name,
          Node.table .stated (withTables inner name' (done ++ list.map valueEntries)))]⟩ := by
  induction list generalizing number heading done with
  | nil => exact ⟨number, heading, by rw [List.map_nil, List.append_nil]; rfl⟩
  | cons es list ih =>
    obtain ⟨hes, hrest⟩ := List.forall_mem_cons.1 hnames
    obtain ⟨number', heading', hmore⟩ :=
      ih hrest (number + 1) [name, name'] (done ++ [valueEntries es])
    refine ⟨number', heading', ?_⟩
    -- The heading opens an empty element behind those that are there.
    have hadd : Assembly.add
        ⟨number, heading, before ++ [(name, Node.table .stated (withTables inner name' done))]⟩
          (.element [name, name']) =
        some ⟨number + 1, [name, name'],
          before ++ [(name, Node.table .stated (withTables inner name' (done ++ [[]])))]⟩ := by
      rw [Assembly.add, openElement_withTables h h']
      rfl
    -- And the entries are put into the last element.
    have hfill := foldlM_entryStatements (opens_element h h' done .stated) (number + 1) [] es hes
    simp only [← withTables_concat, List.nil_append] at hfill
    rw [elementStatements, List.map_cons, List.flatten_cons,
      List.cons_append, List.foldlM_cons, hadd]
    show ((entryStatements es ++ (elementStatements [name, name'] list).flatten).foldlM _ _) = _
    rw [List.foldlM_append, hfill]
    rw [List.append_assoc] at hmore
    exact hmore

/-! ## Documents

A document is written with its plain entries first, as those behind a heading would belong to
it. -/

/-- A table that is written in one block and read back from it, behind whatever was read
before. -/
structure ReadsTable (name : String) (d : Data) : Prop where
  /-- It is a table. -/
  isTable : isTable d = true
  /-- The statements of its block put it into the tree. -/
  reads : ∃ statements, List.Forall₂ ReadsLines (block [name] d) [statements] ∧
    ∀ (number : Nat) (heading : List String) (before : Entries), name ∉ before.map (·.1) →
      ∃ number' heading' n, n.toData = d ∧
      statements.foldlM Assembly.add ⟨number, heading, before⟩ =
        some ⟨number', heading', before ++ [(name, n)]⟩

/-- **A table of plain entries is read back.** -/
theorem readsTable_of_plain (hname : IsBareName name) (h : PlainEntries es)
    (hnames : (es.map (·.1)).Nodup) : ReadsTable name (.record es) := by
  refine ⟨rfl, _, forall₂_block hname h, fun number heading before hfresh => ?_⟩
  have hdata : (Node.table .stated (valueEntries es)).toData = .record es :=
    congrArg Data.record (entriesToData_valueEntries es)
  exact ⟨_, _, _, hdata, foldlM_table number heading hfresh hnames⟩

/-- **A table of plain entries with a list of such tables behind them is read back.** -/
theorem readsTable_of_tables (hname : IsBareName name)
    (hname' : IsBareName name') (h : PlainEntries es)
    {list : List (List (String × Data))} (hlist : ∀ es ∈ list, PlainEntries es) (hne : list ≠ [])
    (hnames : (es.map (·.1)).Nodup) (hfresh' : name' ∉ es.map (·.1))
    (hlists : ∀ es ∈ list, (es.map (·.1)).Nodup) :
    ReadsTable name (.record (es ++ [(name', Data.list (list.map .record))])) := by
  have htables : isTables (.list (list.map .record)) = true := by
    cases list with
    | nil => exact absurd rfl hne
    | cons es list => simp [isTables, Toml.isTable]
  have hinner : (valueEntries es).map (·.1) = es.map (·.1) := by
    rw [valueEntries, List.map_map]
    rfl
  refine ⟨rfl, .table [name] :: entryStatements es ++
    (elementStatements [name, name'] list).flatten,
    ?_, fun number heading before hfresh => ?_⟩
  · -- What is written: the entries of the table, and then its list as blocks.
    have hblock : block [name, name'] (.list (list.map .record)) =
        [separated (elements [name, name'] (list.map .record))] := by
      cases list with
      | nil => exact absurd rfl hne
      | cons es list =>
        rw [List.map_cons, block, if_pos]
        simp [Toml.isTable]
    have hplain : plainLines [(name', Data.list (list.map .record))] = [] := by
      rw [plainLines, List.filter_cons_of_neg (by simp [htables])]
      rfl
    rw [block, plainLines_append, hplain, List.append_nil, blocks_append, blocks_of_plain h,
      List.nil_append, blocks, blocks, List.append_nil]
    rw [show [name] ++ [name'] = [name, name'] from rfl, hblock]
    have hread := readsLines_withBlocks (readsLines_plainLines h)
      (.cons (readsLines_separated (forall₂_elements hname hname' hlist)) .nil)
    rw [List.flatten_cons, List.flatten_nil, List.append_nil] at hread
    exact .cons (.cons (readsLine_table hname) hread) .nil
  · -- What is read: the entries go into the table, and each block adds one to the list.
    obtain ⟨number', heading', hmore⟩ :=
      foldlM_elementStatements hfresh (hinner ▸ hfresh') list hlists
      (number + 1) [name] []
    rw [List.nil_append] at hmore
    refine ⟨number', heading',
      .table .stated (withTables (valueEntries es) name' (list.map valueEntries)),
      ?_, ?_⟩
    · rw [withTables, if_neg (by simpa using hne), Node.toData, entriesToData_append,
        entriesToData_valueEntries]
      show Data.record (es ++ [(name', Data.list (elementsToData (list.map valueEntries)))]) = _
      rw [elementsToData_valueEntries]
    · rw [List.foldlM_append, foldlM_table number heading hfresh hnames]
      exact hmore

/-- Tables are read back one behind the other. Each is put behind those that were read before,
so all of their names have to differ. -/
theorem reads_tables {tables : List (String × Data)} (h : ∀ t ∈ tables, ReadsTable t.1 t.2) :
    ∃ more, List.Forall₂ ReadsLines (blocks [] tables) more ∧
      ∀ (number : Nat) (heading : List String) (before : Entries),
        (before.map (·.1) ++ tables.map (·.1)).Nodup →
        ∃ number' heading' entries, entriesToData entries = tables ∧
          more.flatten.foldlM Assembly.add ⟨number, heading, before⟩ =
            some ⟨number', heading', before ++ entries⟩ := by
  induction tables with
  | nil =>
    refine ⟨[], .nil, fun number heading before _ => ⟨number, heading, [], rfl, ?_⟩⟩
    rw [List.append_nil]
    rfl
  | cons t tables ih =>
    obtain ⟨name, d⟩ := t
    obtain ⟨ht, hrest⟩ := List.forall_mem_cons.1 h
    obtain ⟨statements, hblock, hput⟩ := ht.reads
    obtain ⟨more, hblocks, hmore⟩ := ih hrest
    refine ⟨statements :: more, ?_, fun number heading before hnames => ?_⟩
    · rw [blocks]
      exact List.rel_append hblock hblocks
    · -- The name of the table is none of those in front of it.
      have hfresh : name ∉ before.map (·.1) := fun hmem =>
        (List.nodup_append.1 hnames).2.2 name hmem name List.mem_cons_self rfl
      obtain ⟨number', heading', n, hn, hfold⟩ := hput number heading before hfresh
      obtain ⟨number'', heading'', entries, hentries, hfold'⟩ := hmore number' heading'
        (before ++ [(name, n)]) (by
          rw [List.map_append, List.append_assoc]
          exact hnames)
      refine ⟨number'', heading'', (name, n) :: entries, ?_, ?_⟩
      · rw [entriesToData, hn, hentries]
      · rw [List.flatten_cons, List.foldlM_append, hfold]
        rw [List.append_assoc] at hfold'
        exact hfold'

/-- **A document of plain entries and tables is read back**, with the plain entries in front.
Entries may be written behind tables in the data, and they are read back in front of them. -/
theorem read?_write {lead tables : List (String × Data)} (hlead : PlainEntries lead)
    (h : ∀ t ∈ tables, ReadsTable t.1 t.2)
    (hnames : (lead.map (·.1) ++ tables.map (·.1)).Nodup) :
    read? strict (Text.ofString (write (.record (tables ++ lead))))
      = some (.record (lead ++ tables)) := by
  have htables : plainLines tables = [] := by
    have hfilter : tables.filter (fun t => !isTable t.2 && !isTables t.2) = [] :=
      List.filter_eq_nil_iff.2 fun t ht => by
        rw [(h t ht).isTable]
        exact Bool.false_ne_true
    rw [plainLines, hfilter]
    rfl
  obtain ⟨more, hblocks, hmore⟩ := reads_tables h
  obtain ⟨number, heading, entries, hentries, hfold⟩ := hmore 0 [] (valueEntries lead) (by
    rw [valueEntries, List.map_map]
    exact hnames)
  have hroot := foldlM_entryStatements opens_root 0 [] lead (List.nodup_append.1 hnames).1
  have hread := (readsLines_withBlocks (readsLines_plainLines hlead) hblocks).parseText?
  rw [read?, write, plainLines_append, htables, List.nil_append,
    blocks_append, blocks_of_plain hlead, List.append_nil, hread, Option.bind_some,
    assemble?, List.foldlM_append]
  rw [show (⟨0, [], []⟩ : Assembly) = ⟨0, [], id []⟩ from rfl, hroot]
  show Option.map _ (more.flatten.foldlM Assembly.add ⟨0, [], valueEntries lead⟩) = _
  rw [hfold, Option.map_some, entriesToData_append, entriesToData_valueEntries, hentries]

end Exemplar.Toml
