import Mathlib.Data.List.TakeWhile
import Resumable.CommandLine.Request

/-! The grammar of command lines. Words are spelled by items: flags, a path of settings behind a
word of its own, and positional words. What a request holds depends on the positional words and on
the settings, each in their order, and on nothing else. -/

namespace Resumable.CommandLine

def Flag.word : Flag → String
  | hideTimers => "--hide-timers"
  | hideWarnings => "--hide-warnings"

/-- What one word of a command line stands for, or two of them. -/
inductive Item where
  | flag (flag : Flag)
  | settings (path : String)
  | positional (word : String)

namespace Item

def words : Item → List String
  | flag asked => [asked.word]
  | settings path => ["--config", path]
  | positional word => [word]

/-- What begins like a flag is neither a path nor a positional word. -/
def Proper : Item → Prop
  | flag _ => True
  | settings path => isFlag path = false
  | positional word => isFlag word = false

instance : (item : Item) → Decidable item.Proper
  | flag _ => inferInstanceAs (Decidable True)
  | settings path => inferInstanceAs (Decidable (isFlag path = false))
  | positional word => inferInstanceAs (Decidable (isFlag word = false))

def flag? : Item → Option Flag
  | flag asked => some asked
  | _ => none

def settings? : Item → Option String
  | settings path => some path
  | _ => none

def positional? : Item → Option String
  | positional word => some word
  | _ => none

end Item

/-- The words are those of the items, one item after the other. -/
def Spells (items : List Item) (words : List String) : Prop :=
  words = items.flatMap Item.words ∧ ∀ item ∈ items, item.Proper

def flags (items : List Item) : List Flag := items.filterMap Item.flag?

def settingsPaths (items : List Item) : List String := items.filterMap Item.settings?

def positionals (items : List Item) : List String := items.filterMap Item.positional?

/-- The arguments that words stand for. Only a run takes any, and they are integers. -/
def Arguments (action : Action) (words : List String) (values : List Int64) : Prop :=
  if action = .run then words.mapM integer? = some values else words = [] ∧ values = []

instance (action : Action) (words : List String) (values : List Int64) :
    Decidable (Arguments action words values) :=
  inferInstanceAs (Decidable (if action = .run then _ else _))

/-- What items ask for: the path is the first positional word that isn't empty, those behind it are
the arguments, and the last settings count. -/
structure Request.Means (request : Request) (action : Action) (items : List Item) : Prop where
  action_eq : request.action = action
  settings : request.settingsPath = (settingsPaths items).getLast?
  positional : ∃ blank later, positionals items = blank ++ request.path :: later ∧
    (∀ word ∈ blank, word = "") ∧ request.path ≠ "" ∧ Arguments action later request.arguments

variable {items : List Item} {item : Item} {words rest : List String} {word : String}
variable {request final : Request}

section Spelling

theorem Spells.nil : Spells [] [] := ⟨rfl, by simp⟩

theorem Spells.cons (item : Item) (proper : item.Proper) (spells : Spells items words) :
    Spells (item :: items) (item.words ++ words) := by
  obtain ⟨rfl, all⟩ := spells
  exact ⟨List.flatMap_cons.symm, List.forall_mem_cons.mpr ⟨proper, all⟩⟩

theorem ofWord?_word (asked : Flag) : Flag.ofWord? asked.word = some asked := by
  cases asked <;> rfl

theorem ofWord?_eq_none (plain : isFlag word = false) : Flag.ofWord? word = none := by
  have timers : isFlag "--hide-timers" = true := by decide +kernel
  have warnings : isFlag "--hide-warnings" = true := by decide +kernel
  unfold Flag.ofWord?
  split
  · cases plain.symm.trans timers
  · cases plain.symm.trans warnings
  · rfl

theorem among_words (proper : item.Proper) : Flag.among item.words = item.flag?.toList := by
  cases item with
  | flag asked => simp [Flag.among, Item.words, Item.flag?, ofWord?_word]
  | settings path =>
      have command : Flag.ofWord? "--config" = none := rfl
      simp [Flag.among, Item.words, Item.flag?, command, ofWord?_eq_none proper]
  | positional word => simp [Flag.among, Item.words, Item.flag?, ofWord?_eq_none proper]

theorem Spells.among (spells : Spells items words) : Flag.among words = flags items := by
  obtain ⟨rfl, proper⟩ := spells
  induction items with
  | nil => rfl
  | cons item items ih =>
      obtain ⟨first, others⟩ := List.forall_mem_cons.mp proper
      have behind := ih others
      have ahead := among_words first
      rw [Flag.among] at behind ahead
      rw [Flag.among, List.flatMap_cons, List.filterMap_append, behind, ahead, flags, flags,
        List.filterMap_cons]
      cases item.flag? <;> rfl

end Spelling

namespace Request

def take (request : Request) : Item → Except UsageFault Request
  | .flag _ => .ok request
  | .settings path => .ok { request with settingsPath := some path }
  | .positional word => request.position word

section Reading

theorem read_words (proper : item.Proper) (request : Request) (rest : List String) :
    read request (item.words ++ rest) = request.take item >>= (read · rest) := by
  cases item with
  | flag asked => cases asked <;> rfl
  | settings path =>
      have plain : isFlag path = false := proper
      simp only [Item.words, List.cons_append, List.nil_append, read, take, plain]
      rfl
  | positional word =>
      have plain : isFlag word = false := proper
      have config : isFlag "--config" = true := by decide +kernel
      have timers : isFlag "--hide-timers" = true := by decide +kernel
      have warnings : isFlag "--hide-warnings" = true := by decide +kernel
      rw [Item.words, List.singleton_append, read, take, if_neg (by simp [plain])]
      · cases request.position word <;> rfl
      · rintro rfl
        cases plain.symm.trans config
      · rintro rfl
        cases plain.symm.trans timers
      · rintro rfl
        cases plain.symm.trans warnings

theorem read_items (proper : ∀ item ∈ items, item.Proper) (request : Request) :
    read request (items.flatMap Item.words) = items.foldlM take request >>= finish := by
  induction items generalizing request with
  | nil => rfl
  | cons item items ih =>
      obtain ⟨first, others⟩ := List.forall_mem_cons.mp proper
      rw [List.flatMap_cons, read_words first, List.foldlM_cons]
      cases request.take item with
      | error fault => rfl
      | ok next => exact ih others next

theorem exists_spells (done : read request words = .ok final) : ∃ items, Spells items words := by
  fun_induction read request words with
  | case1 => exact ⟨[], .nil⟩
  | case2 => cases done
  | case3 => cases done
  | case4 request path rest plain ih =>
      obtain ⟨items, spells⟩ := ih done
      exact ⟨_, spells.cons (.settings path) ((Bool.not_eq_true _).mp plain)⟩
  | case5 request rest ih =>
      obtain ⟨items, spells⟩ := ih done
      exact ⟨_, spells.cons (.flag .hideTimers) trivial⟩
  | case6 request rest ih =>
      obtain ⟨items, spells⟩ := ih done
      exact ⟨_, spells.cons (.flag .hideWarnings) trivial⟩
  | case7 => cases done
  | case8 request word rest _ _ _ plain next _ ih =>
      obtain ⟨items, spells⟩ := ih done
      exact ⟨_, spells.cons (.positional word) ((Bool.not_eq_true _).mp plain)⟩
  | case9 => cases done

end Reading

section Meaning

theorem position_settings (request : Request) (path : Option String) (word : String) :
    position { request with settingsPath := path } word =
      (request.position word).map fun next => { next with settingsPath := path } := by
  unfold position
  split
  · rfl
  · split
    · split <;> rfl
    · rfl

theorem settingsPath_of_position {next : Request} (done : request.position word = .ok next) :
    next.settingsPath = request.settingsPath := by
  have kept := position_settings request request.settingsPath word
  rw [done] at kept
  have same : next = { next with settingsPath := request.settingsPath } := Except.ok.inj kept
  rw [same]

theorem positions_settings (request : Request) (path : Option String) (words : List String) :
    words.foldlM position { request with settingsPath := path } =
      (words.foldlM position request).map fun next => { next with settingsPath := path } := by
  induction words generalizing request with
  | nil => rfl
  | cons word words ih =>
      rw [List.foldlM_cons, List.foldlM_cons, position_settings]
      cases request.position word with
      | error fault => rfl
      | ok next => exact ih next

theorem take_items (items : List Item) (request : Request) :
    items.foldlM take request = ((positionals items).foldlM position request).map fun next =>
      { next with settingsPath := (settingsPaths items).getLast?.or request.settingsPath } := by
  induction items generalizing request with
  | nil => rfl
  | cons item items ih =>
      cases item with
      | flag asked => exact ih request
      | settings path =>
          refine (ih { request with settingsPath := some path }).trans ?_
          rw [positions_settings]
          have last : (settingsPaths (.settings path :: items)).getLast?.or request.settingsPath =
              (settingsPaths items).getLast?.or (some path) := by
            change (path :: settingsPaths items).getLast?.or request.settingsPath = _
            rw [List.getLast?_cons]
            cases (settingsPaths items).getLast? <;> rfl
          change _ = ((positionals items).foldlM position request).map _
          rw [last]
          cases (positionals items).foldlM position request <;> rfl
      | positional word =>
          change request.position word >>= items.foldlM take = Except.map _
            (request.position word >>= (positionals items).foldlM position)
          cases done : request.position word with
          | error fault => rfl
          | ok next =>
              refine (ih next).trans ?_
              rw [settingsPath_of_position done]
              rfl

theorem arguments_run {action : Action} {values : List Int64} (run : action = .run) :
    Arguments action words values ↔ words.mapM integer? = some values := by
  rw [Arguments, if_pos run]

theorem arguments_other {action : Action} {values : List Int64} (other : action ≠ .run) :
    Arguments action words values ↔ words = [] ∧ values = [] := by
  rw [Arguments, if_neg other]

theorem positions_run (path : request.path ≠ "") (run : request.action = .run) :
    words.foldlM position request = .ok final ↔
      ∃ values, words.mapM integer? = some values ∧
        final = { request with arguments := request.arguments ++ values } := by
  induction words generalizing request with
  | nil =>
      have stays : { request with arguments := request.arguments ++ [] } = request := by
        rw [List.append_nil]
      constructor
      · rintro ⟨⟩
        exact ⟨[], rfl, stays.symm⟩
      · rintro ⟨values, ⟨⟩, rfl⟩
        exact congrArg Except.ok stays.symm
  | cons word words ih =>
      have known : request.path.isEmpty = false := by simpa using path
      rw [List.foldlM_cons, position, if_neg (by simp [known]), if_pos run, List.mapM_cons]
      cases integer? word with
      | none =>
          constructor
          · rintro ⟨⟩
          · rintro ⟨values, ⟨⟩, _⟩
      | some value =>
          have behind := @ih { request with arguments := request.arguments ++ [value] } path run
          refine behind.trans ?_
          constructor
          · rintro ⟨values, read, rfl⟩
            exact ⟨value :: values, by simp [read], by simp⟩
          · rintro ⟨values, read, rfl⟩
            obtain ⟨_, ⟨⟩, further⟩ := Option.bind_eq_some_iff.mp read
            obtain ⟨others, rest, ⟨⟩⟩ := Option.bind_eq_some_iff.mp further
            exact ⟨others, rest, by simp⟩

theorem positions_other (path : request.path ≠ "") (other : request.action ≠ .run) :
    words.foldlM position request = .ok final ↔ words = [] ∧ final = request := by
  cases words with
  | nil =>
      constructor
      · rintro ⟨⟩
        exact ⟨rfl, rfl⟩
      · rintro ⟨_, rfl⟩
        rfl
  | cons word words =>
      have known : request.path.isEmpty = false := by simpa using path
      rw [List.foldlM_cons, position, if_neg (by simp [known]), if_neg other]
      constructor
      · rintro ⟨⟩
      · rintro ⟨⟨⟩, _⟩

theorem positions_behind (path : request.path ≠ "") :
    words.foldlM position request = .ok final ↔
      ∃ values, Arguments request.action words values ∧
        final = { request with arguments := request.arguments ++ values } := by
  by_cases run : request.action = .run
  · simp only [arguments_run run]
    exact positions_run path run
  · rw [positions_other path run]
    simp [arguments_other run, and_assoc]

theorem position_path (noPath : request.path = "") (word : String) :
    request.position word = .ok { request with path := word } := by
  rw [position, if_pos (by rw [noPath]; rfl)]

theorem positions_blank (noPath : request.path = "") (blank : ∀ word ∈ words, word = "") :
    words.foldlM position request = .ok request := by
  induction words with
  | nil => rfl
  | cons word words ih =>
      obtain ⟨rfl, others⟩ := List.forall_mem_cons.mp blank
      have same : { request with path := "" } = request := by rw [← noPath]
      rw [List.foldlM_cons, position_path noPath, same]
      exact ih others

theorem positions_path (noPath : request.path = "") {blank later : List String} {path : String}
    (empty : ∀ word ∈ blank, word = "") (some_ : path ≠ "") :
    (blank ++ path :: later).foldlM position request >>= finish = .ok final ↔
      ∃ values, Arguments request.action later values ∧
        final = { request with path, arguments := request.arguments ++ values } := by
  have behind : (blank ++ path :: later).foldlM position request =
      later.foldlM position { request with path } := by
    rw [List.foldlM_append, positions_blank noPath empty]
    change (path :: later).foldlM position request = _
    rw [List.foldlM_cons, position_path noPath]
    rfl
  have passes : ∀ next : Request, next.path = path → finish next = .ok next := by
    rintro next rfl
    rw [finish, if_neg (by simpa using some_)]
  rw [behind]
  constructor
  · intro done
    cases read : later.foldlM position { request with path } with
    | error fault =>
        rw [read] at done
        cases done
    | ok next =>
        obtain ⟨values, arguments, same⟩ := (positions_behind some_).mp read
        rw [read] at done
        have last : final = next := Except.ok.inj (done.symm.trans (passes next (by rw [same])))
        exact ⟨values, arguments, last.trans same⟩
  · rintro ⟨values, arguments, rfl⟩
    have located : ({ request with path } : Request).path ≠ "" := some_
    have read := (positions_behind located).mpr ⟨values, arguments, rfl⟩
    rw [read]
    exact passes _ rfl

theorem positions_iff (noPath : request.path = "") :
    words.foldlM position request >>= finish = .ok final ↔
      ∃ blank path later values, words = blank ++ path :: later ∧ (∀ word ∈ blank, word = "") ∧
        path ≠ "" ∧ Arguments request.action later values ∧
        final = { request with path, arguments := request.arguments ++ values } := by
  constructor
  · intro done
    have empty : ∀ word ∈ words.takeWhile (· = ""), word = "" := fun word member => by
      simpa using List.mem_takeWhile_imp member
    have parts := List.takeWhile_append_dropWhile (p := (· = "")) (l := words)
    cases behind : words.dropWhile (· = "") with
    | nil =>
        rw [behind, List.append_nil] at parts
        rw [← parts, positions_blank noPath empty] at done
        change finish request = _ at done
        rw [finish, if_pos (by rw [noPath]; rfl)] at done
        cases done
    | cons path later =>
        have some_ : path ≠ "" := by
          have head := List.head?_dropWhile_not (fun word => decide (word = "")) words
          simpa [behind] using head
        rw [behind] at parts
        rw [← parts] at done
        obtain ⟨values, arguments, same⟩ := (positions_path noPath empty some_).mp done
        exact ⟨_, path, later, values, parts.symm, empty, some_, arguments, same⟩
  · rintro ⟨blank, path, later, values, rfl, empty, some_, arguments, same⟩
    exact (positions_path noPath empty some_).mpr ⟨values, arguments, same⟩

/-- Where nothing was asked for yet, taking up items leads to what they mean. -/
theorem take_iff (action : Action) (items : List Item) :
    items.foldlM take { action } >>= finish = .ok final ↔ final.Means action items := by
  have apart : items.foldlM take { action } >>= finish =
      ((positionals items).foldlM position { action } >>= finish).map fun next =>
        { next with settingsPath := (settingsPaths items).getLast? } := by
    rw [take_items]
    cases (positionals items).foldlM position { action } with
    | error fault => rfl
    | ok next =>
        simp only [Option.or_none]
        change finish _ = Except.map _ (finish next)
        unfold finish
        split <;> rfl
  rw [apart]
  constructor
  · intro done
    cases read : (positionals items).foldlM position { action } >>= finish with
    | error fault =>
        rw [read] at done
        cases done
    | ok next =>
        obtain ⟨blank, path, later, values, split, empty, some_, arguments, rfl⟩ :=
          (positions_iff rfl).mp read
        rw [read] at done
        obtain rfl := Except.ok.inj done
        exact ⟨rfl, rfl, blank, later, split, empty, some_, arguments⟩
  · rintro ⟨rfl, settings, blank, later, split, empty, some_, arguments⟩
    have noPath : ({ action := final.action } : Request).path = "" := rfl
    have read := (positions_iff noPath).mpr
      ⟨blank, final.path, later, final.arguments, split, empty, some_, arguments, rfl⟩
    rw [read, ← settings]
    rfl

end Meaning

/-- What is read from words is what the items mean that spell them. -/
theorem read_iff_means (spells : Spells items words) (action : Action) :
    read { action } words = .ok request ↔ request.Means action items := by
  obtain ⟨rfl, proper⟩ := spells
  rw [read_items proper]
  exact take_iff action items

theorem Means.congr {action : Action} {items' : List Item} (means : request.Means action items)
    (same : positionals items' = positionals items)
    (settings : settingsPaths items' = settingsPaths items) : request.Means action items' :=
  ⟨means.action_eq, settings ▸ means.settings, same ▸ means.positional⟩

theorem exists_arguments {action : Action} : (∃ values, Arguments action words values) ↔
    if action = .run then ∀ word ∈ words, (integer? word).isSome else words = [] := by
  by_cases run : action = .run
  · simp only [arguments_run run, if_pos run]
    induction words with
    | nil => exact ⟨fun _ => by simp, fun _ => ⟨[], rfl⟩⟩
    | cons word words ih =>
        rw [List.forall_mem_cons, ← ih, List.mapM_cons]
        cases integer? word with
        | none => simp
        | some value => cases words.mapM integer? <;> simp
  · simp only [arguments_other run, if_neg run]
    exact ⟨fun ⟨_, none_, _⟩ => none_, fun none_ => ⟨[], none_, rfl⟩⟩

/-- Words are read exactly if each that begins like a flag is a flag, or asks for the settings that
follow, and if there is a path, behind which all positional words are arguments. The request is what
the items mean that spell the words. The flags that a scan of the words finds are the items that
reading passes over. Items that have the same positional words and the same settings, each in the
same order, are read as the same request, however they are mixed and wherever flags stand. -/
theorem read_spelled (action : Action) :
    (∀ words, (∃ request, read { action } words = .ok request) ↔
      ∃ items blank path later, Spells items words ∧ positionals items = blank ++ path :: later ∧
        (∀ word ∈ blank, word = "") ∧ path ≠ "" ∧
        if action = .run then ∀ word ∈ later, (integer? word).isSome else later = []) ∧
    (∀ items words, Spells items words →
      (∀ request, read { action } words = .ok request ↔ request.Means action items) ∧
      Flag.among words = flags items) ∧
    (∀ items items' words words', Spells items words → Spells items' words' →
      positionals items' = positionals items → settingsPaths items' = settingsPaths items →
      ∀ request, read { action } words = .ok request → read { action } words' = .ok request) := by
  refine ⟨fun words => ⟨?_, ?_⟩, fun items words spells => ⟨fun _ => ?_, spells.among⟩, ?_⟩
  · rintro ⟨request, done⟩
    obtain ⟨items, spells⟩ := exists_spells done
    obtain ⟨_, _, blank, later, split, empty, some_, arguments⟩ :=
      (read_iff_means spells action).mp done
    exact ⟨items, blank, request.path, later, spells, split, empty, some_,
      exists_arguments.mp ⟨_, arguments⟩⟩
  · rintro ⟨items, blank, path, later, spells, split, empty, some_, fitting⟩
    obtain ⟨values, arguments⟩ := exists_arguments.mpr fitting
    have means : Means { action, path, settingsPath := (settingsPaths items).getLast?
                         arguments := values } action items :=
      ⟨rfl, rfl, blank, later, split, empty, some_, arguments⟩
    exact ⟨_, (read_iff_means spells action).mpr means⟩
  · exact read_iff_means spells action
  · intro items items' words words' spells spells' same settings request done
    have means := (read_iff_means spells action).mp done
    exact (read_iff_means spells' action).mpr (means.congr same settings)

/-- A negative number is an argument, and the settings may stand among the arguments or ahead of the
path. -/
theorem read_spelled_mixed :
    read { action := .run } ["--hide-timers", "f.json", "-5", "--config", "c.toml", "7"] =
      .ok ⟨.run, "f.json", some "c.toml", [-5, 7]⟩ ∧
    read { action := .run } ["--config", "c.toml", "f.json", "-5", "7", "--hide-warnings"] =
      .ok ⟨.run, "f.json", some "c.toml", [-5, 7]⟩ := by
  have spells : Spells [.flag .hideTimers, .positional "f.json", .positional "-5",
      .settings "c.toml", .positional "7"]
      ["--hide-timers", "f.json", "-5", "--config", "c.toml", "7"] :=
    ⟨rfl, by decide +kernel⟩
  have spells' : Spells [.settings "c.toml", .positional "f.json", .positional "-5",
      .positional "7", .flag .hideWarnings]
      ["--config", "c.toml", "f.json", "-5", "7", "--hide-warnings"] :=
    ⟨rfl, by decide +kernel⟩
  have means : Means ⟨.run, "f.json", some "c.toml", [-5, 7]⟩ .run [.flag .hideTimers,
      .positional "f.json", .positional "-5", .settings "c.toml", .positional "7"] :=
    ⟨rfl, rfl, [], ["-5", "7"], rfl, by simp, by decide, by decide +kernel⟩
  have first := (((read_spelled .run).2.1 _ _ spells).1 _).mpr means
  exact ⟨first, (read_spelled .run).2.2 _ _ _ _ spells spells' rfl rfl _ first⟩

end Request

end Resumable.CommandLine
