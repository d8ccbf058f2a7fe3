import SocialNetworkApp.Config.ParserSafety
import SocialNetworkApp.Config.Paths
import SocialNetworkApp.Dispatch.Dispatcher

/-!
# Starting up

`main` reads the configuration that its argument names, looks for the port and for the locations,
and makes the dispatcher and the server.
-/

namespace SocialNetworkApp

open SocialNetworkApp.Core

/-- What comes of `main`: a status it returns, what the C++ gives no meaning to, or a server. -/
inductive MainOutcome where
  | returned (status : Int)
  | undefined
  | serving (port : Nat) (dispatcher : RequestDispatcher)

/-- `NginxConfigParser::Parse` of a file. A directory opens, but nothing is read of it. -/
def parseFile (fs : FileSystem) (fileName : Str) : ParseResult :=
  match fs.openRead fileName with
  | .closed => .returned false (.mk [])
  | .directory => parse []
  | .contents text => parse text

/-- The port in the endpoint: a `short` for the server, there it is an `unsigned short`. -/
def endpointPort (portno : CInt) : Nat := (Int.bmod portno.val 65536 % 65536).toNat

namespace ServerMain

/-- What `main` does with the configuration; `listens` says whether the acceptor of the server opens
at a port, and otherwise the exception is caught. -/
def start (listens : Nat → Bool) (config : NginxConfig) : MainOutcome :=
  match config.getPortNum with
  | .error _ => .undefined
  | .ok portno =>
    if portno = noPort then .returned portno.val
    else
      match config.getArguments, config.getFactories with
      | some arguments, some factories =>
        if arguments.keys = [] then .returned 1
        else if listens (endpointPort portno) then
          .serving (endpointPort portno) ⟨factories, arguments, config⟩
        else .returned 0
      | _, _ => .undefined

/-- `main`. -/
def main (fs : FileSystem) (listens : Nat → Bool) (argv : List Str) : MainOutcome :=
  match argv with
  | [_, fileName] =>
    match parseFile fs fileName with
    | .undefined => .undefined
    | .returned false _ => .returned 1
    | .returned true config => start listens config
  | _ => .returned 1

end ServerMain

/-! ### What the configuration says -/

/-- There is one port statement in all blocks, with this number at the head of its token. -/
def NginxConfig.AtPort (c : NginxConfig) (port : Nat) : Prop :=
  ∃ v, c.ports = [v] ∧ leadingInt v = port ∧ port ≤ 65535

/-- The number of the port statements, or that of a single one, is more than an `int` holds. -/
def NginxConfig.PortOverflows (c : NginxConfig) : Prop :=
  2147483647 < c.ports.length ∨
    ∃ v, c.ports = [v] ∧ ¬ (-2147483648 ≤ leadingInt v ∧ leadingInt v ≤ 2147483647)

namespace ServerMain

/-- The argument of `main` names a file that is parsed to this configuration. -/
def Reads (fs : FileSystem) (argv : List Str) (c : NginxConfig) : Prop :=
  ∃ program fileName, argv = [program, fileName] ∧ parseFile fs fileName = .returned true c

/-- How `main` ends, and when. -/
inductive Ends (fs : FileSystem) (listens : Nat → Bool) (argv : List Str) : MainOutcome → Prop
  | unread (hnone : ∀ c, ¬ Reads fs argv c) : Ends fs listens argv (.returned 1)
  | overflow {c : NginxConfig} (hc : Reads fs argv c) (hport : c.PortOverflows) :
      Ends fs listens argv .undefined
  | noPort {c : NginxConfig} (hc : Reads fs argv c) (hfits : ¬ c.PortOverflows)
      (hport : ∀ port, ¬ c.AtPort port) : Ends fs listens argv (.returned (-1))
  | noLocation {c : NginxConfig} {port : Nat} (hc : Reads fs argv c) (hport : c.AtPort port)
      (hlocations : c.locationStatements = some []) : Ends fs listens argv (.returned 1)
  | refused {c : NginxConfig} {port : Nat} (hc : Reads fs argv c) (hport : c.AtPort port)
      (hlocations : c.locationStatements ≠ some []) (hlistens : listens port = false) :
      Ends fs listens argv (.returned 0)
  | serving {c : NginxConfig} {port : Nat} {d : RequestDispatcher} (hc : Reads fs argv c)
      (hport : c.AtPort port) (hlocations : c.locationStatements ≠ some [])
      (hlistens : listens port = true) (hd : c.dispatcher = some d) :
      Ends fs listens argv (.serving port d)

end ServerMain

/-! ### The port -/

/-- A port goes through the conversions unchanged. -/
lemma endpointPort_eq {portno : CInt} {port : Nat} (hvalue : portno.val = port)
    (hmax : port ≤ 65535) : endpointPort portno = port := by
  have hmod : Int.bmod portno.val 65536 % 65536 = portno.val % 65536 :=
    @Int.bmod_emod portno.val 65536
  rw [endpointPort, hmod, hvalue]
  omega

lemma portOf_of_fits {v : Str} (hfits : -2147483648 ≤ leadingInt v ∧ leadingInt v ≤ 2147483647) :
    portOf v = .ok (if 0 ≤ leadingInt v ∧ leadingInt v ≤ 65535 then ⟨_, hfits.1, hfits.2⟩
      else noPort) := by
  rw [portOf, atoi, intOf, CInt.ofInt?, dif_pos hfits]
  rfl

namespace NginxConfig

variable {c : NginxConfig} {port : Nat}

lemma AtPort.getPortNum (h : c.AtPort port) :
    ∃ portno : CInt, c.getPortNum = .ok portno ∧ portno.val = port := by
  obtain ⟨v, hv, hvalue, hmax⟩ := h
  rw [c.getPortNum_eq (by simp [hv]), hv, portOfPorts, portOf_of_fits ⟨by omega, by omega⟩,
    if_pos ⟨by omega, by omega⟩]
  exact ⟨_, rfl, hvalue⟩

lemma PortOverflows.getPortNum (h : c.PortOverflows) : ∃ e, c.getPortNum = .error e := by
  rcases h with hmany | ⟨v, hv, hfits⟩
  · exact ⟨_, getPortNum_of_overflow hmany⟩
  · rw [c.getPortNum_eq (by simp [hv]), hv, portOfPorts, portOf, atoi, intOf, CInt.ofInt?,
      dif_neg hfits]
    exact ⟨_, rfl⟩

lemma getPortNum_of_noPort (hfits : ¬ c.PortOverflows) (hport : ∀ port, ¬ c.AtPort port) :
    c.getPortNum = .ok noPort := by
  have hcount : c.ports.length ≤ 2147483647 := not_lt.mp fun hmany => hfits (Or.inl hmany)
  match hports : c.ports with
  | [] =>
    rw [c.getPortNum_eq (by simp [hports]), hports]
    rfl
  | [v] =>
    have hv : -2147483648 ≤ leadingInt v ∧ leadingInt v ≤ 2147483647 :=
      not_not.mp fun hnot => hfits (Or.inr ⟨v, hports, hnot⟩)
    rw [c.getPortNum_eq (by simp [hports]), hports, portOfPorts, portOf_of_fits hv, if_neg]
    rintro ⟨hmin, hmax⟩
    exact hport (leadingInt v).toNat ⟨v, hports, by omega, by omega⟩
  | _ :: _ :: _ => exact c.getPortNum_of_two_le (by simp [hports]) hcount

end NginxConfig

/-! ### The locations -/

lemma NginxConfig.exists_tables {c : NginxConfig} {ls : List LocationStatement}
    (h : c.locationStatements = some ls) :
    ∃ arguments factories, c.getArguments = some arguments ∧ c.getFactories = some factories ∧
      c.dispatcher = some ⟨factories, arguments, c⟩ ∧ (arguments.keys = [] ↔ ls = []) := by
  have harguments : c.getArguments =
      some (Table.writeAll LocationStatement.key (fun l => some l.block) ∅ ls) := by
    rw [getArguments, h]
    rfl
  have hfactories : c.getFactories =
      some (Table.writeAll LocationStatement.key LocationStatement.factory ∅ ls) := by
    rw [getFactories, h]
    rfl
  refine ⟨_, _, harguments, hfactories, ?_, ?_⟩
  · rw [dispatcher, harguments, hfactories]
  · rw [List.eq_nil_iff_forall_not_mem, List.eq_nil_iff_forall_not_mem]
    constructor
    · intro hkeys l hl
      refine hkeys l.key (AList.mem_keys.mp (AList.lookup_isSome.mp ?_))
      rw [Option.isSome_iff_exists, Table.lookup_writeAll_empty_isSome]
      exact ⟨l, hl, rfl, l.block, rfl⟩
    · intro hls k hk
      obtain ⟨v, hv⟩ :=
        Option.isSome_iff_exists.mp (AList.lookup_isSome.mpr (AList.mem_keys.mpr hk))
      obtain ⟨l, hl, -⟩ := Table.lookup_writeAll_empty_isSome.mp ⟨v, hv⟩
      exact hls l hl

namespace ServerMain

variable {fs : FileSystem} {listens : Nat → Bool} {argv : List Str} {c : NginxConfig}
  {ls : List LocationStatement} {port : Nat}

/-! ### How `main` ends -/

lemma exists_locationStatements_of_reads (h : Reads fs argv c) :
    ∃ ls, c.locationStatements = some ls := by
  obtain ⟨_, fileName, -, hparse⟩ := h
  unfold parseFile at hparse
  split at hparse
  · cases hparse
  · exact exists_locationStatements_of_parse hparse
  · exact exists_locationStatements_of_parse hparse

lemma main_of_reads (h : Reads fs argv c) : main fs listens argv = start listens c := by
  obtain ⟨program, fileName, rfl, hparse⟩ := h
  simp only [main, hparse]

lemma main_of_not_reads (h : ∀ c, ¬ Reads fs argv c) :
    main fs listens argv = .returned 1 := by
  match argv with
  | [] | [_] | _ :: _ :: _ :: _ => rfl
  | [program, fileName] =>
    have hreturned : ∃ flag c, parseFile fs fileName = .returned flag c := by
      unfold parseFile
      split
      · exact ⟨_, _, rfl⟩
      · exact (Reached.start).exists_returned
      · exact (Reached.start).exists_returned
    obtain ⟨flag, c, hparse⟩ := hreturned
    cases flag with
    | true => exact absurd ⟨program, fileName, rfl, hparse⟩ (h c)
    | false => simp only [main, hparse]

/-- With a port, it is the locations that count, and then the acceptor. -/
lemma start_of_atPort (hport : c.AtPort port) (h : c.locationStatements = some ls) :
    ∃ d, c.dispatcher = some d ∧ start listens c =
      if ls = [] then .returned 1 else if listens port then .serving port d else .returned 0 := by
  obtain ⟨arguments, factories, harguments, hfactories, hdispatcher, hkeys⟩ := c.exists_tables h
  obtain ⟨portno, hportno, hvalue⟩ := hport.getPortNum
  obtain ⟨-, -, -, hmax⟩ := hport
  have hne : portno ≠ noPort := by
    rintro rfl
    simp only [noPort] at hvalue
    omega
  refine ⟨_, hdispatcher, ?_⟩
  simp only [start, hportno, if_neg hne, harguments, hfactories, hkeys,
    endpointPort_eq hvalue hmax]

lemma Ends.main_eq {outcome : MainOutcome} (h : Ends fs listens argv outcome) :
    main fs listens argv = outcome := by
  cases h with
  | unread hnone => exact main_of_not_reads hnone
  | overflow hc hport =>
    obtain ⟨e, he⟩ := hport.getPortNum
    rw [main_of_reads hc]
    simp only [start, he]
  | noPort hc hfits hport =>
    rw [main_of_reads hc]
    simp only [start, NginxConfig.getPortNum_of_noPort hfits hport, if_true]
    rfl
  | noLocation hc hport hlocations =>
    obtain ⟨d, -, hstart⟩ := @start_of_atPort listens _ _ _ hport hlocations
    rw [main_of_reads hc, hstart, if_pos rfl]
  | refused hc hport hlocations hlistens =>
    obtain ⟨ls, hls⟩ := exists_locationStatements_of_reads hc
    obtain ⟨d, -, hstart⟩ := @start_of_atPort listens _ _ _ hport hls
    rw [main_of_reads hc, hstart, if_neg fun hnil => hlocations (by rw [hls, hnil]),
      if_neg (by simp [hlistens])]
  | serving hc hport hlocations hlistens hd =>
    obtain ⟨ls, hls⟩ := exists_locationStatements_of_reads hc
    obtain ⟨d, hd', hstart⟩ := @start_of_atPort listens _ _ _ hport hls
    rw [hd] at hd'
    rw [main_of_reads hc, hstart, if_neg fun hnil => hlocations (by rw [hls, hnil]),
      if_pos hlistens, Option.some.inj hd']

/-- No case is left out. -/
lemma exists_ends (fs : FileSystem) (listens : Nat → Bool) (argv : List Str) :
    ∃ outcome, Ends fs listens argv outcome := by
  by_cases hnone : ∀ c, ¬ Reads fs argv c
  · exact ⟨_, .unread hnone⟩
  obtain ⟨c, hc⟩ := not_forall_not.mp hnone
  by_cases hfits : c.PortOverflows
  · exact ⟨_, .overflow hc hfits⟩
  by_cases hport : ∀ port, ¬ c.AtPort port
  · exact ⟨_, .noPort hc hfits hport⟩
  obtain ⟨port, hport⟩ := not_forall_not.mp hport
  by_cases hlocations : c.locationStatements = some []
  · exact ⟨_, .noLocation hc hport hlocations⟩
  obtain ⟨ls, hls⟩ := exists_locationStatements_of_reads hc
  obtain ⟨d, hd, -⟩ := @start_of_atPort listens _ _ _ hport hls
  cases hlistens : listens port with
  | false => exact ⟨_, .refused hc hport hlocations hlistens⟩
  | true => exact ⟨_, .serving hc hport hlocations hlistens hd⟩

/-- `main` ends as one of the cases says, and there is only one case for an end. -/
theorem main_eq_iff (fs : FileSystem) (listens : Nat → Bool) (argv : List Str)
    (outcome : MainOutcome) :
    main fs listens argv = outcome ↔ Ends fs listens argv outcome := by
  refine ⟨?_, Ends.main_eq⟩
  rintro rfl
  obtain ⟨outcome, h⟩ := exists_ends fs listens argv
  rwa [h.main_eq]

end ServerMain

end SocialNetworkApp
