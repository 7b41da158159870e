import Universe.Library.Paths
import Universe.Php.Isolation

/-!
# Static files

`serveStatic` appends the path of the request to the public directory as it
is, so that a path with enough `..` in it leads anywhere.
-/

namespace Universe.Php.Http

open Paths

variable (language : Language)

/-- `$_SERVER['REQUEST_URI']` of a request. -/
def requestPath (request : HttpRequest) : Bytes :=
  (language.parseUrl request.uri).1.getD []

/-- `$resource_path`. -/
def resourcePath (webPath : Bytes) (request : HttpRequest) : Bytes :=
  webPath ++ ascii "/public" ++ requestPath language request

/-- The file `serveStatic` reads. -/
def fileRead (webPath : Bytes) (incoming : Incoming) : Option Bytes :=
  let path := resourcePath language webPath incoming.request
  if isStatic (requestPath language incoming.request) &&
      (incoming.files path).isSome
    then some path else none

/-- Where a path leads; 47 is the slash and 46 the dot. -/
def place (path : Bytes) : List Bytes := resolve 47 46 path

/-- The way from `WEBPATH` to the file of a request. -/
def way (request : HttpRequest) : Relative Bytes :=
  .of (components 47 46 (ascii "public" ++ requestPath language request))

/-- The way of a request does not climb above `WEBPATH`, or goes down again by
the names it has climbed, and then into the public directory. -/
def Returns (webPath : Bytes) (request : HttpRequest) : Prop :=
  (place webPath).drop
      ((place webPath).length - (way language request).ups) ++
    [ascii "public"] <+: (way language request).names

variable {language}

/-- The contents of the file are what is served, and nothing else is. -/
theorem served_iff_fileRead {webPath contents : Bytes} {number : Nat}
    {incoming : Incoming} {s : Process} :
    (∃ object, (handle language webPath number incoming s).1 =
        .served object (staticProperties (some contents))) ↔
      ∃ path, fileRead language webPath incoming = some path ∧
        incoming.files path = some contents := by
  have uri : (language.parseUrl incoming.request.uri).1.getD [] =
      requestPath language incoming.request := rfl
  have path : webPath ++ ascii "/public" ++
      requestPath language incoming.request =
      resourcePath language webPath incoming.request := rfl
  unfold handle fileRead
  dsimp only [prepareRequest]
  rw [uri, path]
  cases static : isStatic (requestPath language incoming.request) with
  | false =>
      rw [if_neg Bool.false_ne_true]
      constructor
      · rintro ⟨_, ran⟩
        cases ran
      · rintro ⟨_, read, -⟩
        cases read
  | true =>
      rw [if_pos rfl]
      cases found : incoming.files
        (resourcePath language webPath incoming.request) with
      | none =>
          constructor
          · rintro ⟨_, missing⟩
            injection missing with _ properties
            exact nomatch congrFun properties .statusCode
          · rintro ⟨_, read, -⟩
            cases read
      | some there =>
          constructor
          · rintro ⟨_, served⟩
            injection served with _ properties
            have same : there = contents := by
              have body := congrFun properties .body
              cases body
              rfl
            exact ⟨_, rfl, found.trans (congrArg some same)⟩
          · rintro ⟨path, read, contained⟩
            cases read
            rw [found] at contained
            cases contained
            exact ⟨_, rfl⟩

theorem place_public (webPath : Bytes) :
    place (webPath ++ ascii "/public") = place webPath ++ [ascii "public"] :=
  resolve_append 47 46 webPath (ascii "public")

theorem place_resourcePath (webPath : Bytes) (request : HttpRequest) :
    place (resourcePath language webPath request) =
      walk (place webPath)
        (components 47 46 (ascii "public" ++ requestPath language request)) := by
  unfold resourcePath
  rw [List.append_assoc]
  exact resolve_append 47 46 webPath _

/-- A path that begins with a slash and has no component `..` stays inside. -/
theorem returns_of_no_up {webPath rest : Bytes} {request : HttpRequest}
    (path : requestPath language request = 47 :: rest)
    (noUp : Component.up ∉ components 47 46 rest) :
    Returns language webPath request := by
  have parts : components 47 46 (ascii "public" ++ 47 :: rest) =
      .down (ascii "public") :: components 47 46 rest := by
    unfold components
    rw [List.splitOn_append_cons_of_beq _ rest (beq_self_eq_true 47),
      List.map_append]
    rfl
  obtain ⟨ups, names⟩ := Relative.of_no_up (ascii "public") noUp
  unfold Returns way
  rw [path, parts, ups, Nat.sub_zero, List.drop_length]
  exact names

/-- The file that is read lies inside the public directory exactly if the way
to it returns there. -/
theorem read_inside_iff_returns (language : Language) (webPath : Bytes)
    (incoming : Incoming) :
    (∀ path, fileRead language webPath incoming = some path →
      place (webPath ++ ascii "/public") <+: place path) ↔
    (isStatic (requestPath language incoming.request) = true →
      (incoming.files
        (resourcePath language webPath incoming.request)).isSome = true →
      Returns language webPath incoming.request) := by
  have inside : place (webPath ++ ascii "/public") <+:
        place (resourcePath language webPath incoming.request) ↔
      Returns language webPath incoming.request := by
    rw [place_public, place_resourcePath]
    exact prefix_walk_iff _ _ _
  unfold fileRead
  constructor
  · intro holds static found
    refine inside.mp (holds _ (if_pos ?_))
    rw [static, found]
    rfl
  · intro holds path read
    obtain ⟨read, same⟩ := Option.ite_none_right_eq_some.mp read
    obtain ⟨static, found⟩ := Bool.and_eq_true_iff.mp read
    rw [← Option.some.inj same]
    exact inside.mpr (holds static found)

/-- A visitor who asks for the settings of the database. -/
def intruder : Incoming where
  request :=
    { client := 0, method := ascii "GET", uri := ascii "/../conf/dev/mysql.php",
      httpVersion := ascii "HTTP/1.1", headers := [], body := [] }
  files path :=
    if path = ascii "/web/public/../conf/dev/mysql.php"
      then some (ascii "<?php") else none
  run s := s

theorem settings_served :
    ¬ ∀ (language : Language) (webPath : Bytes) (incoming : Incoming) path,
      fileRead language webPath incoming = some path →
        place (webPath ++ ascii "/public") <+: place path := by
  intro holds
  have inside := holds plainLanguage (ascii "/web") intruder
    (ascii "/web/public/../conf/dev/mysql.php") (by decide)
  revert inside
  decide

end Universe.Php.Http
