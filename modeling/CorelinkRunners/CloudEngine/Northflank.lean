import CorelinkRunners.Kit.Calls
import CorelinkRunners.Kit.Text

/-!
# Jobs of Northflank

The name of a lease's job is a readable part of the name of its container and a suffix of the digest
of the whole name. Every such name is one that the provider accepts, and it gives the suffix back.
So the requests of one lease never reach the job of another, as long as their digests differ in the
bytes of the suffix.
-/

namespace CorelinkRunners.Northflank

/-! ## The name of a job -/

def hexDigit (n : Nat) : Char := Char.ofNat (if n < 10 then 48 + n else 87 + n)

/-- `{byte:02x}` -/
def hexByte (byte : UInt8) : List Char := [hexDigit (byte.toNat / 16), hexDigit (byte.toNat % 16)]

def slug (specName : String) : List Char :=
  specName.toList.map fun c => if c.isAlphanum then c.toLower else '-'

def collapse (prevDash : Bool) : List Char → List Char
  | [] => []
  | c :: cs =>
    if c = '-' then
      if prevDash then collapse true cs else '-' :: collapse true cs
    else c :: collapse false cs

/-- `trim_matches('-')` -/
def trimHyphens (text : List Char) : List Char := (text.dropWhile (· == '-')).rdropWhile (· == '-')

def readableBudget : Nat := 52 - 3 - 1 - 16

def readable (specName : String) : List Char :=
  trimHyphens ((trimHyphens (collapse false (slug specName))).take readableBudget)

section Digest

variable (sha256 : List UInt8 → Vector UInt8 32)

def digestHead (specName : String) : List UInt8 := (sha256 specName.toUTF8.toList).toList.take 8

def suffix (specName : String) : List Char := (digestHead sha256 specName).flatMap hexByte

def northflankJobName (specName : String) : String :=
  .ofList <|
    if (readable specName).isEmpty then ['n', 'f', '-'] ++ suffix sha256 specName
    else ['n', 'f', '-'] ++ readable specName ++ ['-'] ++ suffix sha256 specName

end Digest

/-! ## Legal names -/

def Single (a b : Char) : Prop := ¬(a = '-' ∧ b = '-')

structure Legal (name : List Char) : Prop where
  short : name.length ≤ 52
  letter : ∃ c ∈ name.head?, c.isLower
  chars : ∀ c ∈ name, c.isLower ∨ c.isDigit ∨ c = '-'
  single : name.IsChain Single
  last : name.getLast? ≠ some '-'

/-- A part of a name: it has no hyphen at either end. -/
structure Tidy (part : List Char) : Prop where
  chars : ∀ c ∈ part, c.isLower ∨ c.isDigit ∨ c = '-'
  single : part.IsChain Single
  head : part.head? ≠ some '-'
  last : part.getLast? ≠ some '-'

theorem Tidy.of_alphanumeric {part : List Char} (h : ∀ c ∈ part, c.isLower ∨ c.isDigit) :
    Tidy part := by
  have other : '-' ∉ part := fun mem => by simpa using h _ mem
  refine ⟨fun c mem => (h c mem).imp_right .inl, ?_, ?_, ?_⟩
  · refine (List.pairwise_of_forall_mem_list fun a ha b _ both => ?_).isChain
    exact other (both.1 ▸ ha)
  · exact fun first => other (List.mem_of_head? first)
  · exact fun last => other (List.mem_of_getLast? last)

theorem Tidy.join {a b : List Char} (ha : Tidy a) (hb : Tidy b) (hne : a ≠ []) (hne' : b ≠ []) :
    Tidy (a ++ '-' :: b) := by
  refine ⟨fun c mem => ?_, ?_, ?_, ?_⟩
  · rcases List.mem_append.mp mem with first | rest
    · exact ha.chars c first
    · rcases List.mem_cons.mp rest with rfl | second
      · exact .inr (.inr rfl)
      · exact hb.chars c second
  · refine ha.single.append (hb.single.cons fun y first both => ?_) fun x last y _ both => ?_
    · exact hb.head (both.2 ▸ first)
    · exact ha.last (both.1 ▸ last)
  · rw [List.head?_append_of_ne_nil _ hne]
    exact ha.head
  · rw [List.append_cons, List.getLast?_append_of_ne_nil _ hne']
    exact hb.last

/-! ### The readable part -/

theorem slug_chars (specName : String) : ∀ c ∈ slug specName, c.isLower ∨ c.isDigit ∨ c = '-' := by
  have ascii : ∀ n : Fin 128, (Char.ofNat n).isAlphanum →
      (Char.ofNat n).toLower.isLower ∨ (Char.ofNat n).toLower.isDigit := by
    decide +kernel
  intro c mem
  obtain ⟨d, -, rfl⟩ := List.mem_map.mp mem
  split
  next kept =>
    have small : d.toNat < 128 := by
      simp [Char.isAlphanum, Char.isAlpha, Char.isUpper, Char.isLower, Char.isDigit,
        UInt32.le_iff_toNat_le] at kept
      omega
    have here := ascii ⟨d.toNat, small⟩
    rw [Char.ofNat_toNat] at here
    exact (here kept).imp_right .inl
  · exact .inr (.inr rfl)

theorem collapse_subset (prevDash : Bool) (text : List Char) : collapse prevDash text ⊆ text := by
  induction text generalizing prevDash with
  | nil => exact List.Subset.refl _
  | cons c text ih =>
    unfold collapse
    split
    next hyphen =>
      split
      · exact List.subset_cons_of_subset _ (ih true)
      · exact hyphen ▸ List.cons_subset_cons _ (ih true)
    · exact List.cons_subset_cons _ (ih false)

theorem collapse_single (prevDash : Bool) (text : List Char) :
    (collapse prevDash text).IsChain Single ∧
    (prevDash → (collapse prevDash text).head? ≠ some '-') := by
  induction text generalizing prevDash with
  | nil => exact ⟨.nil, nofun⟩
  | cons c text ih =>
    unfold collapse
    split
    · split
      next seen => exact ⟨(ih true).1, fun _ => (ih true).2 rfl⟩
      next unseen =>
        refine ⟨(ih true).1.cons fun y first both => ?_, fun seen => absurd seen unseen⟩
        exact (ih true).2 rfl (both.2 ▸ first)
    next other =>
      refine ⟨(ih false).1.cons fun y _ both => other both.1, fun _ first => ?_⟩
      exact other (Option.some.inj first)

theorem trimHyphens_within (text : List Char) : trimHyphens text <:+: text :=
  (List.rdropWhile_prefix _ _).isInfix.trans (List.dropWhile_suffix _).isInfix

theorem tidy_trimHyphens {text : List Char} (chars : ∀ c ∈ text, c.isLower ∨ c.isDigit ∨ c = '-')
    (single : text.IsChain Single) : Tidy (trimHyphens text) := by
  have within := trimHyphens_within text
  refine ⟨fun c mem => chars c (within.subset mem), single.infix within, fun first => ?_,
    fun last => ?_⟩
  · obtain ⟨rest, cut⟩ := List.rdropWhile_prefix (· == '-') (text.dropWhile (· == '-'))
    have kept := List.head?_dropWhile_not (· == '-') text
    rw [← cut, List.head?_append, ← trimHyphens, first] at kept
    simp at kept
  · obtain ⟨hne, same⟩ := List.mem_getLast?_eq_getLast last
    exact List.rdropWhile_last_not (· == '-') _ hne (beq_iff_eq.mpr same.symm)

theorem tidy_readable (specName : String) : Tidy (readable specName) := by
  have once : Tidy (trimHyphens (collapse false (slug specName))) :=
    tidy_trimHyphens (fun c mem => slug_chars specName c (collapse_subset _ _ mem))
      (collapse_single false _).1
  exact tidy_trimHyphens (fun c mem => once.chars c (List.mem_of_mem_take mem)) (once.single.take _)

theorem length_readable (specName : String) : (readable specName).length ≤ 32 :=
  (trimHyphens_within _).length_le.trans (List.length_take_le _ _)

/-! ### The suffix -/

section Suffix

variable (sha256 : List UInt8 → Vector UInt8 32) (specName : String)

theorem length_suffix : (suffix sha256 specName).length = 16 := by
  simp [suffix, hexByte, digestHead, List.length_flatMap]

theorem tidy_suffix : Tidy (suffix sha256 specName) := by
  have digits : ∀ n < 16, (hexDigit n).isLower ∨ (hexDigit n).isDigit := by decide
  refine .of_alphanumeric fun c mem => ?_
  obtain ⟨byte, -, mem⟩ := List.mem_flatMap.mp mem
  have := byte.toNat_lt
  simp only [hexByte, List.mem_cons, List.not_mem_nil, or_false] at mem
  rcases mem with rfl | rfl
  · exact digits _ (by omega)
  · exact digits _ (by omega)

theorem suffix_ne_nil : suffix sha256 specName ≠ [] := by
  rw [← List.length_pos_iff, length_suffix]
  decide

/-- **Every name is legal.** -/
theorem northflankJobName_legal : Legal (northflankJobName sha256 specName).toList := by
  have start : Tidy ['n', 'f'] := by
    refine .of_alphanumeric (List.forall_mem_cons.mpr ⟨.inl rfl, ?_⟩)
    exact List.forall_mem_singleton.mpr (.inl rfl)
  have tail : Tidy (suffix sha256 specName) := tidy_suffix sha256 specName
  have ne := suffix_ne_nil sha256 specName
  have long := length_suffix sha256 specName
  -- In both layouts the name starts with two letters and a hyphen, and a tidy part follows.
  have legal {part : List Char} (tidy : Tidy part) (ne : part ≠ []) (long : part.length ≤ 49) :
      Legal (['n', 'f'] ++ '-' :: part) := by
    have all := start.join tidy (by decide) ne
    refine ⟨?_, ⟨'n', rfl, by decide⟩, all.chars, all.single, all.last⟩
    rw [List.length_append, List.length_cons]
    exact Nat.add_le_add_left (Nat.succ_le_succ long) 2
  rw [northflankJobName, String.toList_ofList]
  split
  · exact legal tail ne (long.le.trans (by decide))
  next there =>
    have some : readable specName ≠ [] := by simpa using there
    have short := length_readable specName
    have both := legal ((tidy_readable specName).join tail some ne) (by simp) (by
      rw [List.length_append, List.length_cons]
      omega)
    simpa using both

theorem northflankJobName_suffix :
    ∃ front, (northflankJobName sha256 specName).toList = front ++ suffix sha256 specName := by
  rw [northflankJobName, String.toList_ofList]
  split
  · exact ⟨_, rfl⟩
  · exact ⟨_, rfl⟩

theorem hexByte_inj {a b : UInt8} (h : hexByte a = hexByte b) : a = b := by
  have digits : ∀ m < 16, ∀ n < 16, hexDigit m = hexDigit n → m = n := by decide +kernel
  have ha := a.toNat_lt
  have hb := b.toNat_lt
  obtain ⟨high, low, -⟩ : hexDigit _ = hexDigit _ ∧ hexDigit _ = hexDigit _ ∧ _ := by
    simpa only [hexByte, List.cons.injEq] using h
  have := digits _ (by omega) _ (by omega) high
  have := digits _ (by omega) _ (by omega) low
  exact UInt8.toNat_inj.mp (by omega)

theorem flatMap_hexByte_inj {a b : List UInt8} (h : a.flatMap hexByte = b.flatMap hexByte) :
    a = b := by
  induction a generalizing b with
  | nil =>
    cases b with
    | nil => rfl
    | cons y b => exact absurd h nofun
  | cons x a ih =>
    cases b with
    | nil => exact absurd h nofun
    | cons y b =>
      rw [List.flatMap_cons, List.flatMap_cons] at h
      obtain ⟨first, rest⟩ := List.append_inj h rfl
      rw [hexByte_inj first, ih rest]

variable {sha256}

/-- **The name of a job gives the bytes of the digest back.** -/
theorem digestHead_of_jobName {a b : String}
    (h : northflankJobName sha256 a = northflankJobName sha256 b) :
    digestHead sha256 a = digestHead sha256 b := by
  obtain ⟨front, ha⟩ := northflankJobName_suffix sha256 a
  obtain ⟨front', hb⟩ := northflankJobName_suffix sha256 b
  have same : front ++ suffix sha256 a = front' ++ suffix sha256 b := by rw [← ha, ← hb, h]
  have ends := List.append_inj_right' same (by rw [length_suffix, length_suffix])
  exact flatMap_hexByte_inj ends

end Suffix

/-! ## The engine -/

inductive Method
  | get
  | post
  | patch
  | delete
  deriving DecidableEq

/-- The fields of a create-job request that vary. Of two variables of one name the last counts. -/
structure JobBody where
  name : String
  deploymentPlan : String
  imagePath : String
  storageSize : Nat
  activeDeadlineSeconds : Nat
  runtimeEnvironment : List (String × String)
  deriving DecidableEq

structure HttpRequest where
  method : Method
  url : String
  bearerToken : String
  jsonBody : Option JobBody
  deriving DecidableEq

structure HttpResponse where
  status : Nat
  body : String

def HttpResponse.isSuccess (self : HttpResponse) : Bool := 200 ≤ self.status && self.status < 300

structure ContainerSpec where
  name : String
  image : String
  noNetwork : Bool
  allowEgress : Bool
  runOnCreate : Bool
  env : List (String × String)

structure RunningContainer where
  name : String
  deriving DecidableEq

/-- An answer of the provider that is no success comes with what was asked. -/
inductive EngineError
  | notIsolated
  | notPinned (image : String)
  | diskBelowFloor (diskMb : Nat)
  | transport (message : String)
  | refused (context : String) (response : HttpResponse)

abbrev EngineCall (A : Type) : Type := Kit.Call HttpRequest (fun _ => HttpResponse) EngineError A

/-- `PinnedImageRef::parse` accepts the reference: a repository and a digest in small letters. -/
def isPinned (reference : String) : Bool :=
  let r := (reference.toList.dropWhile Kit.Text.isWhitespace).rdropWhile Kit.Text.isWhitespace
  let repository := r.takeWhile (· != '@')
  let digest := r.dropWhile (· != '@')
  let hex := digest.drop 8
  !repository.isEmpty &&
    repository.all (fun c => c.isAlphanum || ['_', '.', '-', '/', ':'].contains c) &&
    digest.take 8 == "@sha256:".toList && hex.length == 64 &&
    hex.all fun c => c.isDigit || ('a' ≤ c && c ≤ 'f')

def runnerEphemeralStorageFloorMb : Nat := 4096

structure NorthflankConfig where
  baseUrl : String
  projectId : String
  token : String
  deploymentPlan : String
  ephemeralStorageMb : Nat
  runnerDeploymentPlan : Option String
  runnerEphemeralStorageMb : Option Nat
  activeDeadlineSecs : Nat

namespace NorthflankConfig

variable (cfg : NorthflankConfig)

def jobsUrl : String := cfg.baseUrl ++ "/projects/" ++ cfg.projectId ++ "/jobs"

def jobUrl (job : String) : String := cfg.jobsUrl ++ "/" ++ job

def runnerStorageMb : Nat := cfg.runnerEphemeralStorageMb.getD cfg.ephemeralStorageMb

def createJobBody (spec : ContainerSpec) (jobName : String) : JobBody where
  name := jobName
  deploymentPlan :=
    if spec.allowEgress then cfg.runnerDeploymentPlan.getD cfg.deploymentPlan
    else cfg.deploymentPlan
  imagePath := spec.image
  storageSize := if spec.allowEgress then cfg.runnerStorageMb else cfg.ephemeralStorageMb
  activeDeadlineSeconds := cfg.activeDeadlineSecs
  runtimeEnvironment := spec.env

def send (method : Method) (url : String) (jsonBody : Option JobBody) : EngineCall HttpResponse :=
  Kit.Call.await ⟨method, url, cfg.token, jsonBody⟩

def send2xx (method : Method) (url : String) (jsonBody : Option JobBody) (context : String) :
    EngineCall HttpResponse := do
  let response ← cfg.send method url jsonBody
  if response.isSuccess then return response else throw (.refused context response)

def spawn (sha256 : List UInt8 → Vector UInt8 32) (spec : ContainerSpec) :
    EngineCall RunningContainer := do
  if ¬spec.noNetwork ∧ ¬spec.allowEgress then throw .notIsolated
  if ¬isPinned spec.image then throw (.notPinned spec.image)
  if spec.allowEgress ∧ cfg.runnerStorageMb < runnerEphemeralStorageFloorMb then
    throw (.diskBelowFloor cfg.runnerStorageMb)
  let jobName := northflankJobName sha256 spec.name
  let _ ← cfg.send2xx .post cfg.jobsUrl (cfg.createJobBody spec jobName) "create-job"
  if spec.runOnCreate then
    let _ ← cfg.send2xx .post (cfg.jobUrl jobName ++ "/runs") none "trigger-run-on-create"
  return ⟨jobName⟩

/-- A job that is gone already is no error. -/
def deleteJob (c : RunningContainer) : EngineCall Unit := do
  let response ← cfg.send .delete (cfg.jobUrl c.name) none
  if response.isSuccess ∨ response.status = 404 then return ()
  else throw (.refused ("delete-job " ++ c.name) response)

/-- The request creates the job, or its URL leads to the job or below it. -/
def Concerns (request : HttpRequest) (job : String) : Prop :=
  (request.url = cfg.jobsUrl ∧ ∃ body ∈ request.jsonBody, body.name = job) ∨
    ∃ path : String, request.url = cfg.jobUrl job ++ path ∧ path.toList.head?.all (· == '/')

end NorthflankConfig

/-! ## The requests of a lease -/

/-- The provider sees every request, also one whose answer is lost. -/
def provider : Kit.Host HttpRequest (fun _ => HttpResponse) HttpResponse (List HttpRequest) where
  note request sent := sent ++ [request]
  perform _ response sent := (response, sent)

section Lease

variable (sha256 : List UInt8 → Vector UInt8 32) (cfg : NorthflankConfig)

/-- What a lease can ask for, whatever becomes of its requests: it spawns its container, and it
deletes a job that it spawned. -/
inductive Asks (lease : String) : HttpRequest → Prop
  | spawn {spec fates request} :
    spec.name = lease → request ∈ (provider.exec (cfg.spawn sha256 spec).run fates []).2 →
      Asks lease request
  | deleteJob {spec fates c fates' request} :
    spec.name = lease → (provider.exec (cfg.spawn sha256 spec).run fates []).1 = some (.ok c) →
      request ∈ (provider.exec (cfg.deleteJob c).run fates' []).2 → Asks lease request

variable {sha256 cfg}

def Own (cfg : NorthflankConfig) (job : String) (sent : List HttpRequest) : Prop :=
  ∀ request ∈ sent, cfg.Concerns request job

theorem Own.snoc {job : String} {sent : List HttpRequest} (own : Own cfg job sent)
    {request : HttpRequest} (h : cfg.Concerns request job) : Own cfg job (sent ++ [request]) := by
  intro r mem
  rcases List.mem_append.mp mem with before | last
  · exact own r before
  · rw [List.mem_singleton.mp last]
    exact h

theorem meets_send {job url : String} {sent : List HttpRequest} {method : Method}
    {body : Option JobBody} {Q : Except EngineError HttpResponse → List HttpRequest → Prop}
    (own : Own cfg job sent) (h : cfg.Concerns ⟨method, url, cfg.token, body⟩ job)
    (after : ∀ answer sent, Own cfg job sent → Q answer sent) :
    provider.Meets (Own cfg job) Q (cfg.send method url body).run sent := by
  have noted (applied : Option HttpResponse) : Own cfg job
      (provider.unanswered ⟨method, url, cfg.token, body⟩ applied sent) := by
    cases applied with
    | none => exact own.snoc h
    | some response => exact own.snoc h
  exact .await noted (fun response => after _ _ (noted (some response)))
    fun applied error => after _ _ (noted applied)

theorem meets_send2xx {job url context : String} {sent : List HttpRequest} {method : Method}
    {body : Option JobBody} {Q : Except EngineError HttpResponse → List HttpRequest → Prop}
    (own : Own cfg job sent) (h : cfg.Concerns ⟨method, url, cfg.token, body⟩ job)
    (after : ∀ answer sent, Own cfg job sent → Q answer sent) :
    provider.Meets (Own cfg job) Q (cfg.send2xx method url body context).run sent := by
  refine .seq (meets_send own h fun answer sent own => ?_)
  cases answer with
  | error error => exact after _ _ own
  | ok response =>
    dsimp only [Kit.Host.Then]
    split
    · exact after _ _ own
    · exact after _ _ own

theorem meets_spawn (spec : ContainerSpec) :
    provider.Meets (Own cfg (northflankJobName sha256 spec.name))
      (fun answer sent => Own cfg (northflankJobName sha256 spec.name) sent ∧
        ∀ c, answer = .ok c → c.name = northflankJobName sha256 spec.name)
      (cfg.spawn sha256 spec).run [] := by
  unfold NorthflankConfig.spawn
  -- What the name is does not matter here.
  generalize northflankJobName sha256 spec.name = job
  have start : Own cfg job [] := nofun
  have creates : cfg.Concerns ⟨.post, cfg.jobsUrl, cfg.token, cfg.createJobBody spec job⟩ job :=
    .inl ⟨rfl, _, rfl, rfl⟩
  have runs : cfg.Concerns ⟨.post, cfg.jobUrl job ++ "/runs", cfg.token, none⟩ job :=
    .inr ⟨_, rfl, by decide +kernel⟩
  have ends {sent : List HttpRequest} (own : Own cfg job sent) : Own cfg job sent ∧
      ∀ c, (.ok ⟨job⟩ : Except EngineError RunningContainer) = .ok c → c.name = job :=
    ⟨own, fun c same => Except.ok.inj same ▸ rfl⟩
  refine .check ⟨start, nofun⟩ fun _ => .check ⟨start, nofun⟩ fun _ =>
    .check ⟨start, nofun⟩ fun _ => ?_
  refine .seq (meets_send2xx start creates fun answer sent own => ?_)
  cases answer with
  | error error => exact ⟨own, nofun⟩
  | ok response =>
    dsimp only [Kit.Host.Then]
    split
    · refine .seq (meets_send2xx own runs fun answer sent own => ?_)
      cases answer with
      | error error => exact ⟨own, nofun⟩
      | ok response => exact ends own
    · exact ends own

theorem meets_deleteJob (c : RunningContainer) :
    provider.Meets (Own cfg c.name) (fun _ sent => Own cfg c.name sent)
    (cfg.deleteJob c).run [] := by
  have deletes : cfg.Concerns ⟨.delete, cfg.jobUrl c.name, cfg.token, none⟩ c.name :=
    .inr ⟨"", (String.append_empty).symm, rfl⟩
  refine .seq (meets_send nofun deletes fun answer sent own => ?_)
  cases answer with
  | error error => exact own
  | ok response =>
    dsimp only [Kit.Host.Then]
    split
    · exact own
    · exact own

theorem Asks.concerns {lease : String} {request : HttpRequest}
    (asks : Asks sha256 cfg lease request) :
    cfg.Concerns request (northflankJobName sha256 lease) := by
  cases asks with
  | @spawn spec fates _ named sent =>
    subst named
    exact ((meets_spawn spec).exec nofun fates).1 request sent
  | @deleteJob spec fates c fates' _ named spawned sent =>
    subst named
    have same := ((meets_spawn spec).exec nofun fates).2 _ spawned
    rw [← same.2 c rfl]
    exact ((meets_deleteJob c).exec nofun fates').1 request sent

end Lease

/-! ## No two leases share a job -/

theorem Legal.no_slash {name : List Char} (legal : Legal name) : '/' ∉ name := by
  intro mem
  simpa using legal.chars _ mem

theorem takeWhile_segment {job path : List Char} (h : '/' ∉ job)
    (below : path.head?.all (· == '/')) : (job ++ path).takeWhile (· != '/') = job := by
  rw [List.takeWhile_append_of_pos]
  · cases path with
    | nil => simp
    | cons c path =>
      have : c = '/' := by simpa using below
      simp [this]
  · intro c mem
    simpa using ne_of_mem_of_not_mem mem h

theorem Concerns.unique {cfg : NorthflankConfig} {request : HttpRequest} {a b : String}
    (ha : '/' ∉ a.toList) (hb : '/' ∉ b.toList) (first : cfg.Concerns request a)
    (second : cfg.Concerns request b) : a = b := by
  have longer (job path : String) : cfg.jobsUrl ≠ cfg.jobUrl job ++ path := by
    intro same
    have := congrArg String.length same
    have slash : "/".length = 1 := rfl
    rw [NorthflankConfig.jobUrl, String.length_append, String.length_append,
      String.length_append] at this
    omega
  rcases first with ⟨url, body, sent, rfl⟩ | ⟨path, url, below⟩
  · rcases second with ⟨-, body', sent', rfl⟩ | ⟨path, url', -⟩
    · rw [Option.mem_unique sent sent']
    · exact absurd (url.symm.trans url') (longer _ _)
  · rcases second with ⟨url', -⟩ | ⟨path', url', below'⟩
    · exact absurd (url'.symm.trans url) (longer _ _)
    · have same := congrArg String.toList (url.symm.trans url')
      simp only [NorthflankConfig.jobUrl, String.toList_append, List.append_assoc,
        List.append_cancel_left_eq] at same
      have seg := congrArg (List.takeWhile (· != '/')) same
      rw [takeWhile_segment ha below, takeWhile_segment hb below'] at seg
      exact String.toList_inj.mp seg

/-- **Names of jobs are legal and apart.** Every name of a container gives a name that the provider
accepts. Where the digests of the containers' names differ in their first eight bytes, so do the
names of the jobs, and whatever a lease asks for is about its own job and no other. -/
theorem jobs_apart (sha256 : List UInt8 → Vector UInt8 32) (cfg : NorthflankConfig) :
    (∀ specName, Legal (northflankJobName sha256 specName).toList) ∧
    ∀ names : Set String, Set.InjOn (digestHead sha256) names →
      Set.InjOn (northflankJobName sha256) names ∧
      ∀ lease ∈ names, ∀ other ∈ names, ∀ request, Asks sha256 cfg lease request →
        (cfg.Concerns request (northflankJobName sha256 other) ↔ other = lease) := by
  have legal := northflankJobName_legal sha256
  refine ⟨legal, fun names differ => ?_⟩
  have apart : Set.InjOn (northflankJobName sha256) names :=
    fun a ha b hb same => differ ha hb (digestHead_of_jobName same)
  refine ⟨apart, fun lease known other known' request asks => ⟨fun concerns => ?_, ?_⟩⟩
  · apply apart known' known
    exact Concerns.unique (legal _).no_slash (legal _).no_slash concerns asks.concerns
  · rintro rfl
    exact asks.concerns

/-- The digests of two names that one Docker name stands for. -/
def pairDigest (bytes : List UInt8) : Vector UInt8 32 :=
  if bytes = "hugit-job-a b".toUTF8.toList then
    #v[240, 209, 67, 201, 6, 121, 220, 92, 69, 246, 116, 88, 14, 139, 171, 149, 32, 15, 14, 101,
      72, 236, 194, 145, 18, 19, 218, 126, 206, 163, 229, 166]
  else
    #v[184, 3, 107, 126, 149, 130, 214, 173, 117, 170, 248, 247, 100, 85, 34, 92, 235, 118, 179,
      242, 170, 12, 223, 16, 205, 240, 3, 125, 5, 95, 154, 103]

def pairSpec : ContainerSpec where
  name := "hugit-job-a b"
  image := "alpine@sha256:d9e853e87e55526f6b2917df91a2115c36dd7c696a35be12163d44e6e2a4b6bc"
  noNetwork := true
  allowEgress := false
  runOnCreate := false
  env := []

def pairConfig : NorthflankConfig := ⟨"https://nf", "p", "t", "small", 1024, none, none, 3600⟩

def pairRequest : HttpRequest :=
  ⟨.post, "https://nf/projects/p/jobs", "t",
    some ⟨"nf-hugit-job-a-b-f0d143c90679dc5c", "small", pairSpec.image, 1024, 3600, []⟩⟩

theorem jobs_apart_pair :
    Set.InjOn (digestHead pairDigest) {"hugit-job-a b", "hugit-job-a/b"} ∧
    Set.InjOn (northflankJobName pairDigest) {"hugit-job-a b", "hugit-job-a/b"} ∧
    Asks pairDigest pairConfig "hugit-job-a b" pairRequest ∧
    ¬pairConfig.Concerns pairRequest (northflankJobName pairDigest "hugit-job-a/b") := by
  have differ : Set.InjOn (digestHead pairDigest) {"hugit-job-a b", "hugit-job-a/b"} :=
    Set.injOn_pair.mpr fun same => absurd same (by decide +kernel)
  have asks : Asks pairDigest pairConfig "hugit-job-a b" pairRequest :=
    @Asks.spawn _ _ _ pairSpec [.done ⟨200, ""⟩] _ rfl (by decide +kernel)
  obtain ⟨apart, own⟩ := (jobs_apart pairDigest pairConfig).2 _ differ
  refine ⟨differ, apart, asks, fun concerns => ?_⟩
  exact absurd ((own _ (.inl rfl) _ (.inr rfl) _ asks).mp concerns) (by decide)

end CorelinkRunners.Northflank
