import AdaptiveFrame.Cli.Options
import AdaptiveFrame.Proofs.Number.Numerals

/-!
# Command lines

A command line is a row of options (`Reads`): the flag that stands alone, or a name and a value that denotes a setting
(`Denotes`). Numbers are written as `Numeral.Whole` and `Numeral.Single` say. What is no such row begins with one, up to
an option at fault (`Offends`), so every command line is either read or refused (`exists_reads`).

An option changes the options of a run as its setting says, whatever follows it (`readOn_option`). What a row of them
leaves behind (`Holds`) and which of them may change places (`apply_comm`) is therefore a matter of settings alone.
-/

namespace AdaptiveFrame.Cli

open Numeral (Whole Single)

variable {flag : Flag} {arg value message : String} {s s' : Setting} {settings : List Setting} {o : Options}
  {args rest before after : List String}

/-! ## Names and sizes -/

/-- How a flag is written. The output has a short name as well. -/
def Flag.Named (flag : Flag) (arg : String) : Prop := arg = flag.name ∨ flag = .output ∧ arg = "-o"

theorem Flag.named_iff : flag.Named arg ↔ Flag.ofName? arg = some flag := by
  constructor
  · rintro (rfl | ⟨rfl, rfl⟩)
    · cases flag <;> rfl
    · rfl
  · intro h
    unfold Flag.ofName? at h
    split at h <;> cases h <;> first | exact .inl rfl | exact .inr ⟨rfl, rfl⟩

theorem Flag.ofName?_eq_none_iff : Flag.ofName? arg = none ↔ ∀ flag : Flag, ¬ flag.Named arg := by
  rw [Option.eq_none_iff_forall_ne_some]
  exact forall_congr' fun flag => named_iff.not.symm

theorem Flag.Named.ne_noOps (h : flag.Named arg) : arg ≠ "--no-ops" := by
  rintro rfl
  cases named_iff.1 h

theorem not_mem_iff_ne {sep : Char} {cs : List Char} : sep ∉ cs ↔ ∀ c ∈ cs, (c != sep) = true := by
  simp only [bne_iff_ne, ne_eq]
  exact ⟨fun h c hc heq => h (heq ▸ hc), fun h hc => h sep hc rfl⟩

/-- A text is split at the first separator. -/
theorem splitAtFirst_eq_some_iff {sep : Char} {text a b : String} :
    ImageOp.splitAtFirst sep text = some (a, b) ↔ text.toList = a.toList ++ sep :: b.toList ∧ sep ∉ a.toList := by
  unfold ImageOp.splitAtFirst
  dsimp only
  constructor
  · intro h
    split at h
    · cases h
    · rename_i c rest hdrop
      cases h
      have hsplit := List.takeWhile_append_dropWhile (p := (· != sep)) (l := text.toList)
      have hhead := List.head?_dropWhile_not (· != sep) text.toList
      rw [hdrop] at hsplit hhead
      have hsep : c = sep := by simpa using hhead
      rw [hsep] at hsplit
      rw [String.toList_ofList, String.toList_ofList]
      exact ⟨hsplit.symm, not_mem_iff_ne.2 fun c hc => List.mem_takeWhile_imp (p := (· != sep)) hc⟩
  · rintro ⟨htext, hnot⟩
    have hbefore := not_mem_iff_ne.1 hnot
    rw [htext, List.dropWhile_append_of_pos hbefore, List.takeWhile_append_of_pos hbefore,
      List.dropWhile_cons_of_neg (by simp), List.takeWhile_cons_of_neg (by simp), List.append_nil, String.ofList_toList]
    exact congrArg some (congrArg (Prod.mk a) String.ofList_toList)

theorem splitAtFirst_eq_none_iff {sep : Char} {text : String} :
    ImageOp.splitAtFirst sep text = none ↔ sep ∉ text.toList := by
  rw [not_mem_iff_ne, ← List.dropWhile_eq_nil_iff]
  unfold ImageOp.splitAtFirst
  dsimp only
  split <;> simp_all

/-! ## Values -/

/-- What the value of a flag says. A size is split at the first separator. -/
inductive Denotes : Flag → String → Setting → Prop
  | size {w h : String} {m n : Nat} (hfirst : 'x' ∉ w.toList) (hm : Whole UInt32.size w m)
      (hn : Whole UInt32.size h n) : Denotes .size (w ++ "x" ++ h) (.size ⟨m, n⟩)
  | frames {v : String} {n : Nat} (hn : Whole UInt32.size v n) : Denotes .frames v (.frames n)
  | threshold {v : String} {t : Float32} (ht : Single v t) : Denotes .threshold v (.threshold t)
  | samples {v : String} {n : Nat} (hn : Whole UInt32.size v n) : Denotes .samples v (.samples n)
  | devices {v : String} {n : Nat} (hn : Whole UInt64.size v n) : Denotes .devices v (.devices n)
  | taskSize {v : String} {n : Nat} (hn : Whole UInt32.size v n) : Denotes .taskSize v (.taskSize n)
  | rgba8 : Denotes .format "rgba8" (.format .rgba8)
  | srgba : Denotes .format "srgba" (.format .srgba)
  | rgba32f : Denotes .format "rgba32f" (.format .rgba32f)
  | op {v : String} : Denotes .op v (.op v)
  | output {v : String} : Denotes .output v (.output v)

/-- What is said of a text that should be a number. -/
def invalid (text name : String) : String := "invalid value '" ++ text ++ "' for " ++ name

/-- Why the value of a flag says nothing. Of a size, the width is read first. -/
inductive Complaint : Flag → String → String → Prop
  | size {v : String} (hnone : 'x' ∉ v.toList) : Complaint .size v ("expected WxH for --size, got '" ++ v ++ "'")
  | width {w h : String} (hfirst : 'x' ∉ w.toList) (hw : ∀ m, ¬ Whole UInt32.size w m) :
      Complaint .size (w ++ "x" ++ h) (invalid w "--size")
  | height {w h : String} {m : Nat} (hfirst : 'x' ∉ w.toList) (hm : Whole UInt32.size w m)
      (hh : ∀ n, ¬ Whole UInt32.size h n) : Complaint .size (w ++ "x" ++ h) (invalid h "--size")
  | number {flag : Flag} {v : String} (hflag : flag ∈ [.frames, .threshold, .samples, .devices, .taskSize])
      (hv : ∀ s, ¬ Denotes flag v s) : Complaint flag v (invalid v flag.name)
  | format {v : String} (hv : ∀ s, ¬ Denotes .format v s) : Complaint .format v ("unknown color format '" ++ v ++ "'")

theorem split_size {w h : String} : ImageOp.splitAtFirst 'x' value = some (w, h) ↔
    value = w ++ "x" ++ h ∧ 'x' ∉ w.toList := by
  rw [splitAtFirst_eq_some_iff, ← String.toList_inj, String.toList_append, String.toList_append]
  simp

theorem word?_eq_some_iff {text : String} {n : Nat} : Setting.word? text = some n ↔ Whole UInt32.size text n :=
  Numeral.nat?_eq_some_iff

theorem word?_eq_none {text : String} (h : ∀ n, ¬ Whole UInt32.size text n) : Setting.word? text = none :=
  Option.eq_none_iff_forall_ne_some.2 fun n hn => h n (word?_eq_some_iff.1 hn)

theorem ofValue_size {w h : String} (hfirst : 'x' ∉ w.toList) : Setting.ofValue (w ++ "x" ++ h) .size =
    match Setting.word? w, Setting.word? h with
    | some m, some n => .ok (.size ⟨m, n⟩)
    | some _, none => .error (.invalidValue h .size)
    | none, _ => .error (.invalidValue w .size) := by
  have hsplit : ImageOp.splitAtFirst 'x' (w ++ "x" ++ h) = some (w, h) := split_size.2 ⟨rfl, hfirst⟩
  simp only [Setting.ofValue, hsplit, Setting.number]
  cases Setting.word? w <;> cases Setting.word? h <;> rfl

theorem ofValue_size_of_none (hnone : 'x' ∉ value.toList) :
    Setting.ofValue value .size = .error (.invalidSize value) := by
  unfold Setting.ofValue
  rw [splitAtFirst_eq_none_iff.2 hnone]

theorem ofValue_format (value : String) : Setting.ofValue value .format =
    match formatOfName? value with
    | some f => .ok (.format f)
    | none => .error (.unknownFormat value) := rfl

theorem map_number_eq_ok_iff {α : Type} {read? : String → Option α} {f : α → Setting} :
    f <$> Setting.number flag read? value = .ok s ↔ ∃ a, read? value = some a ∧ f a = s := by
  unfold Setting.number
  cases read? value with
  | none => simp [Functor.map, Except.map]
  | some a => simp [Functor.map, Except.map]

theorem map_number_eq_error {α : Type} {read? : String → Option α} {f : α → Setting} {e : ArgError}
    (h : f <$> Setting.number flag read? value = .error e) : e = .invalidValue value flag := by
  unfold Setting.number at h
  cases hread : read? value <;> rw [hread] at h <;> cases h
  rfl

theorem Denotes.ofValue (h : Denotes flag value s) : Setting.ofValue value flag = .ok s := by
  cases h with
  | size hfirst hm hn =>
    rw [ofValue_size hfirst, word?_eq_some_iff.2 hm, word?_eq_some_iff.2 hn]
  | frames hn | samples hn | devices hn | taskSize hn =>
    exact map_number_eq_ok_iff.2 ⟨_, Numeral.nat?_eq_some_iff.2 hn, rfl⟩
  | threshold ht => exact map_number_eq_ok_iff.2 ⟨_, Numeral.binary32?_eq_some_iff.2 ht, rfl⟩
  | _ => rfl

/-- A value that is read denotes what it is read as. -/
theorem denotes_of_ofValue (h : Setting.ofValue value flag = .ok s) : Denotes flag value s := by
  cases flag with
  | size =>
    cases hsplit : ImageOp.splitAtFirst 'x' value with
    | none =>
      rw [ofValue_size_of_none (splitAtFirst_eq_none_iff.1 hsplit)] at h
      cases h
    | some sides =>
      obtain ⟨rfl, hfirst⟩ := split_size.1 hsplit
      rw [ofValue_size hfirst] at h
      split at h <;> cases h
      rename_i m n hm hn
      exact .size hfirst (word?_eq_some_iff.1 hm) (word?_eq_some_iff.1 hn)
  | format =>
    rw [ofValue_format] at h
    unfold formatOfName? at h
    split at h
    · rename_i f hf
      split at hf <;> cases hf <;> cases h
      · exact .rgba8
      · exact .srgba
      · exact .rgba32f
    · cases h
  | op => cases h; exact .op
  | output => cases h; exact .output
  | threshold =>
    obtain ⟨t, ht, rfl⟩ := map_number_eq_ok_iff.1 h
    exact .threshold (Numeral.binary32?_eq_some_iff.1 ht)
  | frames | samples | devices | taskSize =>
    obtain ⟨n, hn, rfl⟩ := map_number_eq_ok_iff.1 h
    constructor
    exact Numeral.nat?_eq_some_iff.1 hn

theorem not_denotes_of_error {e : ArgError} (h : Setting.ofValue value flag = .error e) (s : Setting) :
    ¬ Denotes flag value s := by
  intro hs
  rw [hs.ofValue] at h
  cases h

/-- A value that is refused is complained about. -/
theorem complaint_of_ofValue {e : ArgError} (h : Setting.ofValue value flag = .error e) :
    Complaint flag value e.message := by
  have hnot := not_denotes_of_error h
  cases flag with
  | size =>
    cases hsplit : ImageOp.splitAtFirst 'x' value with
    | none =>
      have hnone := splitAtFirst_eq_none_iff.1 hsplit
      rw [ofValue_size_of_none hnone] at h
      cases h
      exact .size hnone
    | some sides =>
      obtain ⟨rfl, hfirst⟩ := split_size.1 hsplit
      rw [ofValue_size hfirst] at h
      split at h <;> cases h
      · rename_i m hm hn
        exact .height hfirst (word?_eq_some_iff.1 hm) fun n hn' => by simp [word?_eq_some_iff.2 hn'] at hn
      · rename_i hm
        exact .width hfirst fun m hm' => by simp [word?_eq_some_iff.2 hm'] at hm
  | format =>
    rw [ofValue_format] at h
    split at h <;> cases h
    exact .format hnot
  | op => cases h
  | output => cases h
  | _ =>
    obtain rfl := map_number_eq_error h
    exact .number (by decide) hnot

theorem exists_error_of_not_denotes (h : ∀ s, ¬ Denotes flag value s) : ∃ e, Setting.ofValue value flag = .error e := by
  cases hread : Setting.ofValue value flag with
  | ok s => exact absurd (denotes_of_ofValue hread) (h s)
  | error e => exact ⟨e, rfl⟩

theorem Complaint.ofValue (h : Complaint flag value message) :
    ∃ e, Setting.ofValue value flag = .error e ∧ e.message = message := by
  cases h with
  | size hnone => exact ⟨_, ofValue_size_of_none hnone, rfl⟩
  | width hfirst hw => exact ⟨.invalidValue _ .size, by rw [ofValue_size hfirst, word?_eq_none hw], rfl⟩
  | height hfirst hm hh =>
    refine ⟨.invalidValue _ .size, ?_, rfl⟩
    rw [ofValue_size hfirst, word?_eq_some_iff.2 hm, word?_eq_none hh]
  | number hflag hv =>
    obtain ⟨e, he⟩ := exists_error_of_not_denotes hv
    refine ⟨e, he, ?_⟩
    cases flag with
    | size | format | op | output => simp at hflag
    | _ =>
      obtain rfl := map_number_eq_error he
      rfl
  | format hv =>
    obtain ⟨e, he⟩ := exists_error_of_not_denotes hv
    refine ⟨e, he, ?_⟩
    rw [ofValue_format] at he
    split at he <;> cases he
    rfl

/-! ## Options in a row -/

/-- A well-formed option, and what it sets. -/
inductive IsOption : List String → Setting → Prop
  | noOps : IsOption ["--no-ops"] .noOps
  | valued {flag : Flag} {arg value : String} {s : Setting} (harg : flag.Named arg) (hvalue : Denotes flag value s) :
      IsOption [arg, value] s

/-- A command line of well-formed options. -/
inductive Reads : List String → List Setting → Prop
  | nil : Reads [] []
  | cons {option rest : List String} {s : Setting} {settings : List Setting} (hoption : IsOption option s)
      (hrest : Reads rest settings) : Reads (option ++ rest) (s :: settings)

/-- A command line that begins with an option at fault, and what is said of that. -/
inductive Offends : List String → String → Prop
  | missing {flag : Flag} {arg : String} (harg : flag.Named arg) : Offends [arg] ("missing value for " ++ arg)
  | value {flag : Flag} {arg value message : String} {rest : List String} (harg : flag.Named arg)
      (hvalue : Complaint flag value message) : Offends (arg :: value :: rest) message
  | unknown {arg : String} {rest : List String} (halone : arg ≠ "--no-ops") (harg : ∀ flag : Flag, ¬ flag.Named arg) :
      Offends (arg :: rest) ("unknown argument '" ++ arg ++ "'")

/-- Options that are changed by a command line. -/
def readOn (o : Options) (args : List String) : Except ArgError Options :=
  (Setting.readAll args).map (·.foldl Options.apply o)

theorem ofArgs_eq (args : List String) : Options.ofArgs args = readOn {} args := by
  unfold Options.ofArgs readOn
  cases Setting.readAll args <;> rfl

theorem readOn_nil (o : Options) : readOn o [] = .ok o := rfl

theorem readAll_noOps (rest : List String) :
    Setting.readAll ("--no-ops" :: rest) = (Setting.readAll rest).map (.noOps :: ·) := by
  cases rest with
  | nil => rfl
  | cons value rest =>
    rw [Setting.readAll, if_pos rfl]
    cases Setting.readAll (value :: rest) <;> rfl

theorem readAll_named (harg : flag.Named arg) (value : String) (rest : List String) :
    Setting.readAll (arg :: value :: rest) =
      Setting.ofValue value flag >>= fun s => (Setting.readAll rest).map (s :: ·) := by
  rw [Setting.readAll, if_neg harg.ne_noOps, Flag.named_iff.1 harg]
  rfl

theorem readAll_unknown (halone : arg ≠ "--no-ops") (harg : ∀ flag : Flag, ¬ flag.Named arg) (rest : List String) :
    Setting.readAll (arg :: rest) = .error (.unknownArgument arg) := by
  have hname := Flag.ofName?_eq_none_iff.2 harg
  cases rest with
  | nil => rw [Setting.readAll, if_neg halone, hname]; rfl
  | cons value rest => rw [Setting.readAll, if_neg halone, hname]

/-- A well-formed option is applied, and reading goes on behind it. -/
theorem readOn_option (h : IsOption args s) (o : Options) (rest : List String) :
    readOn o (args ++ rest) = readOn (o.apply s) rest := by
  unfold readOn
  cases h with
  | noOps =>
    rw [List.singleton_append, readAll_noOps]
    cases Setting.readAll rest <;> rfl
  | valued harg hvalue =>
    rw [List.cons_append, List.singleton_append, readAll_named harg, hvalue.ofValue]
    cases Setting.readAll rest <;> rfl

/-- Well-formed options are applied one after the other. -/
theorem readOn_reads (h : Reads args settings) (o : Options) (rest : List String) :
    readOn o (args ++ rest) = readOn (settings.foldl Options.apply o) rest := by
  induction h generalizing o with
  | nil => rfl
  | cons hoption hrest ih => rw [List.append_assoc, readOn_option hoption, ih, List.foldl_cons]

/-- Nothing is read from an option at fault on. -/
theorem readOn_offends (h : Offends args message) :
    ∃ e : ArgError, e.message = message ∧ ∀ o, readOn o args = .error e := by
  unfold readOn
  cases h with
  | @missing flag arg harg =>
    refine ⟨.missingValue arg, rfl, fun o => ?_⟩
    rw [Setting.readAll, if_neg harg.ne_noOps, Flag.named_iff.1 harg]
    rfl
  | value harg hvalue =>
    obtain ⟨e, he, hmessage⟩ := hvalue.ofValue
    refine ⟨e, hmessage, fun o => ?_⟩
    rw [readAll_named harg, he]
    rfl
  | @unknown arg rest halone harg =>
    refine ⟨.unknownArgument arg, rfl, fun o => ?_⟩
    rw [readAll_unknown halone harg]
    rfl

/-- Every command line begins with well-formed options, up to its end or to an option at fault. -/
theorem exists_reads (args : List String) : ∃ before settings rest, args = before ++ rest ∧ Reads before settings ∧
    (rest = [] ∨ ∃ message, Offends rest message) := by
  have hoffends : ∀ {rest message}, Offends rest message → ∃ before settings rest', rest = before ++ rest' ∧
      Reads before settings ∧ (rest' = [] ∨ ∃ message, Offends rest' message) :=
    fun h => ⟨[], [], _, rfl, .nil, .inr ⟨_, h⟩⟩
  induction args using Setting.readAll.induct with
  | case1 => exact ⟨[], [], [], rfl, .nil, .inl rfl⟩
  | case2 => exact ⟨["--no-ops"], _, [], rfl, .cons .noOps .nil, .inl rfl⟩
  | case3 arg halone hflag =>
    obtain ⟨flag, hflag⟩ := Option.isSome_iff_exists.1 hflag
    exact hoffends (.missing (Flag.named_iff.2 hflag))
  | case4 arg halone hflag => exact hoffends (.unknown halone (Flag.ofName?_eq_none_iff.1 (by simpa using hflag)))
  | case5 value rest ih =>
    obtain ⟨before, settings, rest', heq, hreads, hrest⟩ := ih
    exact ⟨"--no-ops" :: before, _, rest', congrArg _ heq, .cons .noOps hreads, hrest⟩
  | case6 arg value rest halone flag hflag ih =>
    have harg := Flag.named_iff.2 hflag
    cases hvalue : Setting.ofValue value flag with
    | error e => exact hoffends (.value harg (complaint_of_ofValue hvalue))
    | ok s =>
      obtain ⟨before, settings, rest', rfl, hreads, hrest⟩ := ih
      exact ⟨arg :: value :: before, _, rest', rfl, .cons (.valued harg (denotes_of_ofValue hvalue)) hreads, hrest⟩
  | case7 arg value rest halone hflag => exact hoffends (.unknown halone (Flag.ofName?_eq_none_iff.1 hflag))

/-! ## What settings leave behind -/

/-- The field that an option sets. -/
def Setting.field : Setting → Flag
  | .size _ => .size
  | .frames _ => .frames
  | .threshold _ => .threshold
  | .samples _ => .samples
  | .devices _ => .devices
  | .taskSize _ => .taskSize
  | .format _ => .format
  | .op _ | .noOps => .op
  | .output _ => .output

/-- Settings of different fields are independent. -/
theorem apply_comm (h : s.field ≠ s'.field) (o : Options) : (o.apply s).apply s' = (o.apply s').apply s := by
  cases s <;> cases s' <;> first | rfl | exact absurd rfl h

/-- The last value of a kind that is given, if any is. -/
def last {α : Type} (value? : Setting → Option α) (settings : List Setting) (default : α) : α :=
  (settings.filterMap value?).getLastD default

/-- The name of the operation that is asked for. -/
def Setting.op? : Setting → Option String
  | .op name => some name
  | _ => none

def Setting.isNoOps : Setting → Bool
  | .noOps => true
  | _ => false

/-- Operations that are asked for after the list was emptied for the last time. -/
def opsGiven (settings : List Setting) : List String := (settings.rtakeWhile fun s => !s.isNoOps).filterMap Setting.op?

/-- Options hold the last value given for a field, or the default. -/
structure Holds (o : Options) (settings : List Setting) : Prop where
  size : o.size = last (fun | .size size => some size | _ => none) settings ⟨640, 360⟩
  format : o.format = last (fun | .format f => some f | _ => none) settings .srgba
  taskSize : o.taskSize = last (fun | .taskSize n => some (.square n) | _ => none) settings defaultTaskSize
  output : o.output = last (fun | .output path => some path | _ => none) settings "output.png"
  devices : o.devices = last (fun | .devices n => some n | _ => none) settings 0
  threshold : o.sampling.threshold = last (fun | .threshold t => some t | _ => none) settings 0.02
  samples : o.sampling.samplesPerPixel = last (fun | .samples n => some n | _ => none) settings 1
  maxFrames : o.maxFrames = last (fun | .frames n => some n | _ => none) settings 256
  channels : o.channels = .ofList [.color, .accum, .variance, .depth, .normal, .albedo]
  ops : o.imageOps = if settings.any (·.field = .op) then opsGiven settings else ["tonemapper"]

/-- A field that takes over the value of a setting, if that is of its kind, has the last one in the end. -/
theorem foldl_apply_eq_last {α : Type} (get : Options → α) {value? : Setting → Option α}
    (hget : ∀ o s, get (o.apply s) = (value? s).getD (get o)) (settings : List Setting) (o : Options) :
    get (settings.foldl Options.apply o) = last value? settings (get o) := by
  induction settings generalizing o with
  | nil => rfl
  | cons s settings ih =>
    rw [List.foldl_cons, ih, hget]
    unfold last
    cases hs : value? s with
    | none => rw [List.filterMap_cons_none hs, Option.getD_none]
    | some a => rw [List.filterMap_cons_some hs, List.getLastD_cons, Option.getD_some]

/-- No option asks for channels. -/
theorem foldl_apply_channels (settings : List Setting) (o : Options) :
    (settings.foldl Options.apply o).channels = o.channels := by
  induction settings generalizing o with
  | nil => rfl
  | cons s settings ih =>
    rw [List.foldl_cons, ih]
    cases s <;> rfl

theorem opsGiven_concat (settings : List Setting) (s : Setting) : opsGiven (settings ++ [s]) =
    if s.isNoOps then [] else opsGiven settings ++ s.op?.toList := by
  unfold opsGiven
  rw [List.rtakeWhile_concat]
  cases s <;> simp [Setting.isNoOps, Setting.op?]

/-- No operations are given where no option is about them. -/
theorem opsGiven_eq_nil (h : settings.any (·.field = .op) = false) : opsGiven settings = [] := by
  refine List.filterMap_eq_nil_iff.2 fun s hs => ?_
  have hfield := List.any_eq_false.1 h s ((List.rtakeWhile_suffix _ _).subset hs)
  cases s <;> first | rfl | exact absurd rfl hfield

theorem foldl_apply_ops (settings : List Setting) : (settings.foldl Options.apply {}).ops =
    if settings.any (·.field = .op) then some (opsGiven settings) else none := by
  induction settings using List.reverseRecOn with
  | nil => rfl
  | append_singleton settings s ih =>
    rw [List.foldl_concat, opsGiven_concat, List.any_append, List.any_cons, List.any_nil, Bool.or_false]
    cases s with
    | op name =>
      show some ((settings.foldl Options.apply {}).ops.getD [] ++ [name]) = _
      rw [ih]
      cases hany : settings.any (·.field = .op) with
      | true => simp [Setting.field, Setting.isNoOps, Setting.op?]
      | false => simp [Setting.field, Setting.isNoOps, Setting.op?, opsGiven_eq_nil hany]
    | noOps => simp [Options.apply, Setting.field, Setting.isNoOps]
    | _ => simpa [Options.apply, Setting.field, Setting.isNoOps, Setting.op?] using ih

theorem holds_foldl (settings : List Setting) : Holds (settings.foldl Options.apply {}) settings where
  size := foldl_apply_eq_last Options.size (fun _ s => by cases s <;> rfl) settings {}
  format := foldl_apply_eq_last Options.format (fun _ s => by cases s <;> rfl) settings {}
  taskSize := foldl_apply_eq_last Options.taskSize (fun _ s => by cases s <;> rfl) settings {}
  output := foldl_apply_eq_last Options.output (fun _ s => by cases s <;> rfl) settings {}
  devices := foldl_apply_eq_last Options.devices (fun _ s => by cases s <;> rfl) settings {}
  threshold := foldl_apply_eq_last (fun o => o.sampling.threshold) (fun _ s => by cases s <;> rfl) settings {}
  samples := foldl_apply_eq_last (fun o => o.sampling.samplesPerPixel) (fun _ s => by cases s <;> rfl) settings {}
  maxFrames := foldl_apply_eq_last Options.maxFrames (fun _ s => by cases s <;> rfl) settings {}
  channels := foldl_apply_channels settings {}
  ops := by
    unfold Options.imageOps
    rw [foldl_apply_ops]
    split <;> rfl

/-! ## Command lines as a whole -/

/-- Arguments up to which a command line is cut into options, well-formed or not. -/
inductive Aligned : List String → Prop
  | nil : Aligned []
  | noOps {rest : List String} (hrest : Aligned rest) : Aligned ("--no-ops" :: rest)
  | named {flag : Flag} {arg value : String} {rest : List String} (harg : flag.Named arg) (hrest : Aligned rest) :
      Aligned (arg :: value :: rest)
  | unknown {arg : String} {rest : List String} (halone : arg ≠ "--no-ops") (harg : ∀ flag : Flag, ¬ flag.Named arg)
      (hrest : Aligned rest) : Aligned (arg :: rest)

/-- Two neighboring options of different fields may change places. -/
theorem readOn_swap {a b : List String} (hbefore : Aligned before) (ha : IsOption a s) (hb : IsOption b s')
    (h : s.field ≠ s'.field) (o : Options) :
    readOn o (before ++ (b ++ (a ++ after))) = readOn o (before ++ (a ++ (b ++ after))) := by
  induction hbefore generalizing o with
  | nil =>
    rw [List.nil_append, List.nil_append, readOn_option hb, readOn_option ha, readOn_option ha, readOn_option hb,
      apply_comm h]
  | @noOps rest hrest ih =>
    show readOn o (["--no-ops"] ++ (rest ++ _)) = readOn o (["--no-ops"] ++ (rest ++ _))
    rw [readOn_option .noOps, readOn_option .noOps, ih]
  | @named flag arg value rest harg hrest ih =>
    cases hvalue : Setting.ofValue value flag with
    | ok t =>
      have hoption : IsOption [arg, value] t := .valued harg (denotes_of_ofValue hvalue)
      show readOn o ([arg, value] ++ (rest ++ _)) = readOn o ([arg, value] ++ (rest ++ _))
      rw [readOn_option hoption, readOn_option hoption, ih]
    | error e =>
      unfold readOn
      rw [List.cons_append, List.cons_append, readAll_named harg, hvalue, List.cons_append, List.cons_append,
        readAll_named harg, hvalue]
      rfl
  | unknown halone harg hrest ih =>
    unfold readOn
    rw [List.cons_append, readAll_unknown halone harg, List.cons_append, readAll_unknown halone harg]

theorem ofArgs_reads (h : Reads args settings) : Options.ofArgs args = .ok (settings.foldl Options.apply {}) := by
  have hrun := readOn_reads h {} []
  rwa [List.append_nil, readOn_nil, ← ofArgs_eq] at hrun

theorem ofArgs_offends (hbefore : Reads before settings) (hrest : Offends rest message) :
    ∃ e, Options.ofArgs (before ++ rest) = .error e ∧ e.message = message := by
  obtain ⟨e, hmessage, he⟩ := readOn_offends hrest
  exact ⟨e, by rw [ofArgs_eq, readOn_reads hbefore, he], hmessage⟩

/-- A command line is read exactly if it is a row of well-formed options. The options of the run then hold what was
asked for last, and otherwise the complaint is about the first option at fault. Neighboring options of different fields
may change places. -/
theorem ofArgs_spec (args : List String) :
    ((∃ o, Options.ofArgs args = .ok o) ↔ ∃ settings, Reads args settings) ∧
    (∀ settings, Reads args settings → ∃ o, Options.ofArgs args = .ok o ∧ Holds o settings) ∧
    (∀ message, (∃ e, Options.ofArgs args = .error e ∧ e.message = message) ↔
      ∃ before settings rest, args = before ++ rest ∧ Reads before settings ∧ Offends rest message) ∧
    ∀ before a b after s s', args = before ++ (a ++ (b ++ after)) → Aligned before → IsOption a s → IsOption b s' →
      s.field ≠ s'.field → Options.ofArgs (before ++ (b ++ (a ++ after))) = Options.ofArgs args := by
  refine ⟨⟨?_, fun ⟨settings, h⟩ => ⟨_, ofArgs_reads h⟩⟩, fun settings h => ⟨_, ofArgs_reads h, holds_foldl settings⟩,
    fun message => ⟨?_, ?_⟩, ?_⟩
  · rintro ⟨o, ho⟩
    obtain ⟨before, settings, rest, rfl, hbefore, rfl | ⟨message, hrest⟩⟩ := exists_reads args
    · exact ⟨settings, by rwa [List.append_nil]⟩
    · obtain ⟨e, he, -⟩ := ofArgs_offends hbefore hrest
      cases ho.symm.trans he
  · rintro ⟨e, he, rfl⟩
    obtain ⟨before, settings, rest, rfl, hbefore, rfl | ⟨message, hrest⟩⟩ := exists_reads args
    · rw [List.append_nil, ofArgs_reads hbefore] at he
      cases he
    · obtain ⟨e', he', rfl⟩ := ofArgs_offends hbefore hrest
      cases he.symm.trans he'
      exact ⟨before, settings, rest, rfl, hbefore, hrest⟩
  · rintro ⟨before, settings, rest, rfl, hbefore, hrest⟩
    exact ofArgs_offends hbefore hrest
  · rintro before a b after s s' rfl hbefore ha hb h
    rw [ofArgs_eq, ofArgs_eq, readOn_swap hbefore ha hb h]

/-- Numbers are read in base ten and rounded, and of two values the last one counts. -/
theorem ofArgs_numbers :
    let args := ["--spp", "+04", "--threshold", "inf", "--size", "30x+2", "--frames", "0016", "--threshold", "1.0e-1"]
    ∃ o, Options.ofArgs args = .ok o ∧ o.sampling = ⟨.ofBits 0x3dcccccd, 4⟩ ∧ o.size = ⟨30, 2⟩ ∧ o.maxFrames = 16 := by
  have hfour : Whole UInt32.size "+04" 4 := ⟨['0', '4'], .inr rfl, by decide, ⟨[0, 4], by decide, rfl, rfl⟩, by decide⟩
  have hthirty : Whole UInt32.size "30" 30 :=
    ⟨['3', '0'], .inl rfl, by decide, ⟨[3, 0], by decide, rfl, rfl⟩, by decide⟩
  have htwo : Whole UInt32.size "+2" 2 := ⟨['2'], .inr rfl, by decide, ⟨[2], by decide, rfl, rfl⟩, by decide⟩
  have hsixteen : Whole UInt32.size "0016" 16 :=
    ⟨['0', '0', '1', '6'], .inl rfl, by decide, ⟨[0, 0, 1, 6], by decide, rfl, rfl⟩, by decide⟩
  have hinf : Single "inf" Binary32.posInf := .infinity .none rfl (.inl rfl) rfl
  have htenth : Single "1.0e-1" (.ofBits 0x3dcccccd) := by
    have hdigits : Numeral.Digits (['1'] ++ ['0']) 10 := ⟨[1, 0], by decide, rfl, rfl⟩
    have hpower : Numeral.Exponent ['e', '-', '1'] (-1) :=
      .some (.inl rfl) .minus (by decide) ⟨[1], by decide, rfl, rfl⟩
    have hdecimal : Numeral.Decimal ['1', '.', '0', 'e', '-', '1'] (10 * 10 ^ (-1 - 1 : Int)) :=
      .mk hdigits (by decide) (.inl rfl) hpower
    have hnearest : Binary32.Nearest (10 * 10 ^ (-1 - 1 : Int)) 0x3dcccccd := by
      refine Binary32.nearest_of_between (i := 0x3dcccccc) (j := 0x3dcccccd) ?_ ?_ ?_ ?_ ?_ <;>
        norm_num [Binary32.bitsSize]
    exact .decimal .none rfl hdecimal hnearest rfl
  have hreads := Reads.cons (.valued (.inl rfl) (.samples hfour)) <| .cons (.valued (.inl rfl) (.threshold hinf)) <|
    .cons (.valued (.inl rfl) (.size (w := "30") (h := "+2") (by decide) hthirty htwo)) <|
    .cons (.valued (.inl rfl) (.frames hsixteen)) <| .cons (.valued (.inl rfl) (.threshold htenth)) .nil
  obtain ⟨o, ho, hholds⟩ := (ofArgs_spec _).2.1 _ hreads
  refine ⟨o, ho, ?_, hholds.size, hholds.maxFrames⟩
  have hsampling : o.sampling = ⟨o.sampling.threshold, o.sampling.samplesPerPixel⟩ := rfl
  rw [hsampling, hholds.threshold, hholds.samples]
  rfl

/-- The list of operations is emptied on demand, and what looks like a flag can be the value of one. -/
example : (Options.ofArgs ["--op", "a", "--no-ops", "--op", "b", "--op", "--no-ops"]).toOption.map Options.imageOps =
    some ["b", "--no-ops"] := rfl

end AdaptiveFrame.Cli
