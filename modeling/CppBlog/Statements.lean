import CppBlog.Schema
import Mathlib.Data.List.Sort

set_option autoImplicit false

/-! # The SQL statements

Every statement the handlers send, as a function of the database: a `SELECT` computes its rows, an
`INSERT`, `UPDATE` or `DELETE` computes the next database, or an error when the schema refuses it. Rows
whose order a statement leaves open come in the order of the table; `ORDER BY` sorts stably. -/

namespace CppBlog

open Store

/-- What `cppdb::cppdb_error` reports: a violated `unique` constraint, or any other failure. -/
inductive SqlError where
  | unique
  | failed
deriving DecidableEq

/-- The result of a statement that may be refused. -/
def orRefuse (err : SqlError) : Option Db → Except SqlError Db
  | some d => .ok d
  | none => .error err

/-- `ORDER BY f DESC` -/
def orderByDesc {ρ : Type} (f : ρ → Int) (l : List ρ) : List ρ :=
  l.insertionSort (fun a b => f b ≤ f a)

/-- `ORDER BY f` -/
def orderBy {ρ : Type} (f : ρ → Int) (l : List ρ) : List ρ :=
  l.insertionSort (fun a b => f a ≤ f b)

/-- `LIMIT n OFFSET k` -/
def limitOffset {ρ : Type} (n k : Int) (l : List ρ) : List ρ := (l.drop k.toNat).take n.toNat

/-- `SELECT COUNT(...)` -/
def count {ρ : Type} (l : List ρ) : Int := (l.length : Int)

namespace Db

/-! ## text_options and users -/

/-- `SELECT id,value FROM text_options` -/
def selectOptions (d : Db) : List (String × String) :=
  d.textOptions.rows.map (fun r => (r.id, r.value))

/-- `DELETE FROM text_options WHERE id in (...)` -/
def deleteOptions (ids : List String) (d : Db) : Db :=
  { d with textOptions := d.textOptions.delete (fun r => r.id ∈ ids) }

/-- `INSERT INTO text_options values(id,value)` -/
def insertOption (id value : String) (d : Db) : Except SqlError Db :=
  orRefuse .unique <|
    (d.textOptions.insert? ⟨id, value⟩).map (fun t => { d with textOptions := t })

/-- `UPDATE text_options SET value = '3' WHERE id='dbversion'` -/
def updateDbversion (d : Db) : Db :=
  { d with
    textOptions := d.textOptions.update (fun r => r.id = "dbversion")
      (fun r => { r with value := "3" }) (fun _ => rfl) }

/-- `INSERT INTO users(username,password) values(?,?)`; user names are unique. -/
def insertUser (username password : String) (d : Db) : Except SqlError Db :=
  if d.users.rows.any (fun r => r.username = username) then .error .unique
  else orRefuse .failed <|
    (d.users.insert? (fun i => ⟨i, username, password⟩) (fun _ => rfl)).map
      (fun t => { d with users := t })

/-- `UPDATE users SET username=?,password=? WHERE id=?`; user names are unique. -/
def updateUser (id : Int) (username password : String) (d : Db) : Except SqlError Db :=
  if d.users.rows.any (fun r => r.id = id) &&
      d.users.rows.any (fun r => r.id ≠ id && r.username = username) then .error .unique
  else .ok
    { d with
      users := d.users.update (fun r => r.id = id)
        (fun r => { r with username := username, password := password }) (fun _ => rfl) }

/-- `DELETE FROM users WHERE id=?` -/
def deleteUser (id : Int) (d : Db) : Db := { d with users := d.users.delete (fun r => r.id = id) }

/-- `SELECT id,username,password FROM users WHERE username = ?` -/
def selectUserByName (username : String) (d : Db) : Option User :=
  d.users.rows.find? (fun r => r.username = username)

/-- `SELECT username, password FROM users WHERE id=?` -/
def selectUser (id : Int) (d : Db) : Option User := d.users.find? id

/-- The users whose rows satisfy a condition, `ORDER BY id ASC LIMIT ? OFFSET ?` -/
def selectUsers (p : User → Bool) (n k : Int) (d : Db) : List User :=
  limitOffset n k (orderBy User.id (d.users.rows.filter p))

/-- `SELECT COUNT(id) FROM users WHERE ...` -/
def countUsers (p : User → Bool) (d : Db) : Int := count (d.users.rows.filter p)

/-! ## posts -/

/-- `SELECT is_open,title,abstract,content FROM posts WHERE id=?` -/
def selectPost (id : Int) (d : Db) : Option Post := d.posts.find? id

/-- `SELECT is_open FROM posts WHERE id=?` -/
def selectPostIsOpen (id : Int) (d : Db) : Option Int := (d.posts.find? id).map Post.isOpen

/-- `INSERT INTO posts(author_id,title,abstract,content,publish,is_open) VALUES(?,?,?,?,?,?)` -/
def insertPost (authorId : Int) (title abstract content : String) (publish : Tm) (isOpen : Int)
    (d : Db) : Except SqlError Db :=
  orRefuse .failed <|
    (d.posts.insert? (fun i => ⟨i, authorId, title, abstract, content, publish, 0, isOpen⟩)
      (fun _ => rfl)).map (fun t => { d with posts := t })

/-- `st.sequence_last("post_id_seq")` -/
def lastPostId (d : Db) : Int := d.posts.seq

/-- `UPDATE posts SET title=?,abstract=?,content=?,publish=?,is_open=? WHERE id=?` -/
def updatePostPublish (id : Int) (title abstract content : String) (publish : Tm) (isOpen : Int)
    (d : Db) : Db :=
  { d with
    posts := d.posts.update (fun r => r.id = id)
      (fun r => { r with
        title := title, abstract := abstract, content := content, publish := publish,
        isOpen := isOpen }) (fun _ => rfl) }

/-- `UPDATE posts SET title=?,abstract=?,content=?,is_open=? WHERE id=?` -/
def updatePost (id : Int) (title abstract content : String) (isOpen : Int) (d : Db) : Db :=
  { d with
    posts := d.posts.update (fun r => r.id = id)
      (fun r => { r with
        title := title, abstract := abstract, content := content, isOpen := isOpen })
      (fun _ => rfl) }

/-- `SELECT publish FROM posts WHERE id=?` -/
def selectPostPublish (id : Int) (d : Db) : Option Tm := (d.posts.find? id).map Post.publish

/-- `DELETE FROM posts where id=?` -/
def deletePost (id : Int) (d : Db) : Db := { d with posts := d.posts.delete (fun r => r.id = id) }

/-- `UPDATE posts SET comment_count = (SELECT count(*) FROM comments WHERE post_id=?)
    WHERE id = ?` -/
def updateCommentCount (id : Int) (d : Db) : Db :=
  { d with
    posts := d.posts.update (fun r => r.id = id)
      (fun r => { r with
        commentCount := count (d.comments.rows.filter (fun c => c.postId = id)) })
      (fun _ => rfl) }

/-- `SELECT title,abstract,content,publish,is_open,users.username FROM posts JOIN users on
    posts.author_id = users.id WHERE posts.id = ?` -/
def selectPostJoinUser (id : Int) (d : Db) : Option (Post × String) :=
  (d.posts.find? id).bind (fun p => (d.users.find? p.authorId).map (fun u => (p, u.username)))

/-- `SELECT COUNT(id) FROM posts WHERE is_open=1 AND ...` -/
def countOpenPosts (p : Post → Bool) (d : Db) : Int :=
  count (d.posts.rows.filter (fun r => r.isOpen = 1 && p r))

/-- `SELECT ... FROM posts LEFT JOIN users ON users.id=posts.author_id WHERE posts.is_open=1 AND ...
    ORDER BY posts.publish DESC LIMIT ? OFFSET ?`; without its author the user name is `NULL`. -/
def selectOpenPosts (p : Post → Bool) (n k : Int) (d : Db) : List (Post × Option String) :=
  (limitOffset n k (orderByDesc (fun r => r.publish)
    (d.posts.rows.filter (fun r => r.isOpen = 1 && p r)))).map
      (fun r => (r, (d.users.find? r.authorId).map User.username))

/-- `SELECT id,title FROM posts WHERE is_open = 0 ORDER BY id DESC` -/
def selectClosedPosts (d : Db) : List (Int × String) :=
  (orderByDesc Post.id (d.posts.rows.filter (fun r => r.isOpen = 0))).map (fun r => (r.id, r.title))

/-- `SELECT id,title FROM posts WHERE is_open = 1 ORDER BY id DESC LIMIT ? OFFSET ?` -/
def selectPublishedPosts (n k : Int) (d : Db) : List (Int × String) :=
  (limitOffset n k (orderByDesc Post.id (d.posts.rows.filter (fun r => r.isOpen = 1)))).map
    (fun r => (r.id, r.title))

/-! ## comments -/

/-- `INSERT INTO comments(post_id,author,email,url,publish_time,content) VALUES(?,?,?,?,?,?)` -/
def insertComment (postId : Int) (author email url : String) (publishTime : Tm) (content : String)
    (d : Db) : Except SqlError Db :=
  orRefuse .failed <|
    (d.comments.insert? (fun i => ⟨i, postId, author, email, url, publishTime, content⟩)
      (fun _ => rfl)).map (fun t => { d with comments := t })

/-- `SELECT id,author,url,publish_time,content FROM comments WHERE post_id=? ORDER BY publish_time` -/
def selectCommentsOf (postId : Int) (d : Db) : List Comment :=
  orderBy (fun c => c.publishTime) (d.comments.rows.filter (fun c => c.postId = postId))

/-- `SELECT id,post_id,author,content FROM comments ORDER BY id DESC LIMIT 10` -/
def selectLastComments (d : Db) : List Comment :=
  limitOffset 10 0 (orderByDesc Comment.id d.comments.rows)

/-- `SELECT post_id,author,email,url,content FROM comments WHERE id = ?` -/
def selectComment (id : Int) (d : Db) : Option Comment := d.comments.find? id

/-- `DELETE FROM comments WHERE id=?` -/
def deleteComment (id : Int) (d : Db) : Db :=
  { d with comments := d.comments.delete (fun r => r.id = id) }

/-- `DELETE FROM comments WHERE post_id = ?` -/
def deleteCommentsOf (postId : Int) (d : Db) : Db :=
  { d with comments := d.comments.delete (fun r => r.postId = postId) }

/-- `UPDATE comments SET author = ?,email = ?,url = ?,content = ? WHERE id = ?` -/
def updateComment (id : Int) (author email url content : String) (d : Db) : Db :=
  { d with
    comments := d.comments.update (fun r => r.id = id)
      (fun r => { r with author := author, email := email, url := url, content := content })
      (fun _ => rfl) }

/-! ## cats and post2cat -/

/-- `SELECT id,name FROM cats` -/
def selectCats (d : Db) : List Cat := d.cats.rows

/-- `SELECT MAX(id) FROM cats`, `none` for `NULL` -/
def selectMaxCatId (d : Db) : Option Int := (d.cats.rows.map Cat.id).max?

/-- `SELECT name FROM cats WHERE id=?` -/
def selectCatName (id : Int) (d : Db) : Option String := (d.cats.find? id).map Cat.name

/-- `INSERT INTO cats(name) VALUES(?)` -/
def insertCat (name : String) (d : Db) : Except SqlError Db :=
  orRefuse .failed <|
    (d.cats.insert? (fun i => ⟨i, name⟩) (fun _ => rfl)).map (fun t => { d with cats := t })

/-- `UPDATE cats SET name=? WHERE id=?` -/
def updateCat (id : Int) (name : String) (d : Db) : Db :=
  { d with
    cats := d.cats.update (fun r => r.id = id) (fun r => { r with name := name }) (fun _ => rfl) }

/-- `DELETE FROM cats WHERE id=?` -/
def deleteCat (id : Int) (d : Db) : Db := { d with cats := d.cats.delete (fun r => r.id = id) }

/-- `SELECT post2cat.cat_id,cats.name FROM post2cat JOIN cats ON post2cat.cat_id=cats.id WHERE
    post2cat.post_id=?` -/
def selectCatsOf (postId : Int) (d : Db) : List Cat :=
  (d.post2cat.rows.filter (fun r => r.postId = postId)).filterMap (fun r => d.cats.find? r.catId)

/-- `SELECT post_id, cat_id,cats.name FROM post2cat JOIN cats ON cats.id = post2cat.cat_id WHERE
    post_id in (...) ORDER BY post_id` -/
def selectCatsOfPosts (postIds : List Int) (d : Db) : List (Int × Cat) :=
  orderBy Prod.fst ((d.post2cat.rows.filter (fun r => r.postId ∈ postIds)).filterMap
    (fun r => (d.cats.find? r.catId).map (fun c => (r.postId, c))))

/-- `SELECT post_id FROM post2cat WHERE cat_id = ? LIMIT 1` -/
def selectPostInCat (catId : Int) (d : Db) : Option Int :=
  (d.post2cat.rows.find? (fun r => r.catId = catId)).map Post2Cat.postId

/-- `INSERT INTO post2cat(post_id,cat_id,publish,is_open) VALUES(?,?,?,?)` -/
def insertPost2Cat (postId catId : Int) (publish : Tm) (isOpen : Int) (d : Db) :
    Except SqlError Db :=
  orRefuse .unique <|
    (d.post2cat.insert? ⟨postId, catId, publish, isOpen⟩).map (fun t => { d with post2cat := t })

/-- `UPDATE post2cat SET publish=?, is_open=? WHERE post_id=?` -/
def updatePost2CatPublish (postId : Int) (publish : Tm) (isOpen : Int) (d : Db) : Db :=
  { d with
    post2cat := d.post2cat.update (fun r => r.postId = postId)
      (fun r => { r with publish := publish, isOpen := isOpen }) (fun _ => rfl) }

/-- `UPDATE post2cat SET is_open=? WHERE post_id=?` -/
def updatePost2CatOpen (postId : Int) (isOpen : Int) (d : Db) : Db :=
  { d with
    post2cat := d.post2cat.update (fun r => r.postId = postId)
      (fun r => { r with isOpen := isOpen }) (fun _ => rfl) }

/-- `DELETE FROM post2cat WHERE post_id=? AND cat_id=?` -/
def deletePost2Cat (postId catId : Int) (d : Db) : Db :=
  { d with post2cat := d.post2cat.delete (fun r => r.postId = postId && r.catId = catId) }

/-- `DELETE FROM post2cat WHERE post_id = ?` -/
def deletePost2CatOf (postId : Int) (d : Db) : Db :=
  { d with post2cat := d.post2cat.delete (fun r => r.postId = postId) }

/-- `DELETE FROM post2cat WHERE cat_id=?` -/
def deletePost2CatIn (catId : Int) (d : Db) : Db :=
  { d with post2cat := d.post2cat.delete (fun r => r.catId = catId) }

/-- `UPDATE post2cat SET is_open = (SELECT posts.is_open FROM posts WHERE posts.id =
    post2cat.post_id)`; a row without its post would become `NULL`, which the column refuses. -/
def updatePost2CatFromPosts (d : Db) : Except SqlError Db :=
  if d.post2cat.rows.all (fun r => (d.posts.find? r.postId).isSome) then .ok
    { d with
      post2cat := d.post2cat.update (fun _ => true)
        (fun r => { r with isOpen := ((d.posts.find? r.postId).map Post.isOpen).getD 0 })
        (fun _ => rfl) }
  else .error .failed

/-- `SELECT a.id,a.name,COUNT(b.post_id) FROM cats a LEFT JOIN post2cat b ON a.id=b.cat_id AND
    b.is_open=1 GROUP BY a.id` -/
def selectCatCounts (d : Db) : List (Cat × Int) :=
  d.cats.rows.map (fun c =>
    (c, count (d.post2cat.rows.filter (fun r => r.catId = c.id && r.isOpen = 1))))

/-- The rows of `post2cat LEFT JOIN posts ON post2cat.post_id=posts.id WHERE post2cat.cat_id=? AND
    post2cat.is_open=1 AND ...`; a condition on the post's columns fails where the post is `NULL`. -/
def openRowsInCat (catId : Int) (p : Option Post → Bool) (d : Db) : List (Post2Cat × Option Post) :=
  ((d.post2cat.rows.filter (fun r => r.catId = catId && r.isOpen = 1)).map
    (fun r => (r, d.posts.find? r.postId))).filter (fun x => p x.2)

/-- `SELECT COUNT(post_id) FROM post2cat ... WHERE cat_id=? AND is_open=1 AND ...` -/
def countInCat (catId : Int) (p : Option Post → Bool) (d : Db) : Int :=
  count (d.openRowsInCat catId p)

/-- `SELECT ... FROM post2cat LEFT JOIN posts ... LEFT JOIN users ON users.id=posts.author_id WHERE
    post2cat.cat_id=? AND post2cat.is_open=1 AND ... ORDER BY post2cat.publish DESC LIMIT ?
    OFFSET ?` -/
def selectPostsInCat (catId : Int) (p : Option Post → Bool) (n k : Int) (d : Db) :
    List (Option Post × Option String) :=
  (limitOffset n k (orderByDesc (fun x => x.1.publish) (d.openRowsInCat catId p))).map
    (fun x => (x.2, x.2.bind (fun r => (d.users.find? r.authorId).map User.username)))

/-! ## pages -/

/-- `SELECT id,title FROM pages WHERE is_open=1` -/
def selectOpenPages (d : Db) : List (Int × String) :=
  (d.pages.rows.filter (fun r => r.isOpen = 1)).map (fun r => (r.id, r.title))

/-- `SELECT id,title,is_open FROM pages` -/
def selectPages (d : Db) : List Page := d.pages.rows

/-- `SELECT title,content,is_open FROM pages WHERE id=?` -/
def selectPage (id : Int) (d : Db) : Option Page := d.pages.find? id

/-- `INSERT INTO pages(author_id,title,content,is_open) VALUES(?,?,?,?)` -/
def insertPage (authorId : Int) (title content : String) (isOpen : Int) (d : Db) :
    Except SqlError Db :=
  orRefuse .failed <|
    (d.pages.insert? (fun i => ⟨i, authorId, title, content, isOpen⟩) (fun _ => rfl)).map
      (fun t => { d with pages := t })

/-- `st.sequence_last("page_id_seq")` -/
def lastPageId (d : Db) : Int := d.pages.seq

/-- `UPDATE pages SET title=?,content=?,is_open=? WHERE id=?` -/
def updatePage (id : Int) (title content : String) (isOpen : Int) (d : Db) : Db :=
  { d with
    pages := d.pages.update (fun r => r.id = id)
      (fun r => { r with title := title, content := content, isOpen := isOpen }) (fun _ => rfl) }

/-- `DELETE FROM pages where id=?` -/
def deletePage (id : Int) (d : Db) : Db := { d with pages := d.pages.delete (fun r => r.id = id) }

end Db

end CppBlog
