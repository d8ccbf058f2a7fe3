import SocialNetworkApp.Meme.Module

/-!
# The pages of the memes

The texts `MemeHandler` writes into its responses. The parts are those of the source, in its order.
-/

namespace SocialNetworkApp

open SocialNetworkApp.Core

namespace MemeHandler

/-- `form_`. -/
def creationForm (location : Str) : Str :=
  List.flatten [
    "<html> <style>".toList, "input[type=text], select \x7b".toList, "width: 100%;".toList,
    "padding: 12px 20px;".toList, "margin: 8px 0;".toList, "display: inline-block;".toList,
    "border: 1px solid #ccc;".toList, "border-radius: 4px;".toList,
    "box-sizing: border-box;".toList, "\x7d".toList, "input[type=submit] \x7b".toList,
    "width: 100%;".toList, "background-color: #4CAF50;".toList, "color: white;".toList,
    "padding: 14px 20px;".toList, "margin: 8px 0;".toList, "border: none;".toList,
    "border-radius: 4px;".toList, "cursor: pointer;".toList, "\x7d".toList,
    "input[type=submit]:hover \x7b".toList, "background-color: #45a049;".toList, "\x7d".toList,
    "div \x7b".toList, "border-radius: 5px;".toList, "background-color: #f2f2f2;".toList,
    "padding: 20px;".toList, "\x7d".toList, "</style>".toList,
    "<body> <div> <form id = \"new_meme\" method = \"\" action=\"".toList, location,
    "/creation_form\" onsubmit = \"runCode(event)\">".toList,
    "<label for=\"top\">Top text</label>".toList,
    "<input type=\"text\" id=\"top\" name=\"top\" placeholder=\"Top text..\">".toList,
    "<label for=\"bottom\">Bottom text</label>".toList,
    "<input type=\"text\" id=\"bottom\" name=\"bottom\" placeholder=\"Bottom text..\">".toList,
    "<label for=\"image\">Image</label>".toList, "<select id=\"img\" name=\"img\">".toList,
    "<option value = \"select\">Select an image template </option>".toList,
    "<option value=\"One-Does-Not-Simply\">one does not simply</option>".toList,
    "<option value=\"Two-Buttons\">two buttons</option>".toList,
    "<option value=\"Buff-Doge-vs-Cheems\">buff doge vs Cheems</option>".toList,
    "<option value=\"Drake-Hotline-Bling\">drake hotline bling</option>".toList,
    "<option value=\"Left-Exit-12-Off-Ramp\">left exit 12 off ramp</option>".toList,
    "<option value=\"Mocking-Spongebob\">mocking spongebob</option>".toList,
    "<option value=\"Change-My-Mind\">change my mind</option>".toList, "</select>".toList,
    "<button type=\"submit\"> Submit</button>".toList, "</form> </div>".toList, "<script>".toList,
    "function runCode(event) \x7b".toList, "event.preventDefault(); ".toList,
    "var top = document.getElementById(\"top\").value;".toList,
    "var bottom = document.getElementById(\"bottom\").value;".toList,
    "var template = document.querySelector('select[name=\"img\"]').value;".toList,
    "var data = \x7b".toList, "top: top,".toList, "bottom:bottom,".toList,
    "template:template".toList, "\x7d;".toList, "var xhr = new XMLHttpRequest();".toList,
    "xhr.open(\"POST\", \"".toList, location, "\", true);".toList,
    "xhr.onreadystatechange = function() \x7b".toList, "console.log(xhr.responseText);".toList,
    "\x7d;".toList, "xhr.setRequestHeader(\"Content-Type\", \"application/json\");".toList,
    "xhr.send(JSON.stringify(data))".toList, "\x7d".toList, "</script> </body> </html>".toList]

/-- `comment_form_`. -/
def commentForm (location : Str) : Str :=
  List.flatten [
    "<html> <style>".toList, "input[type=text], select \x7b".toList, "width: 100%;".toList,
    "padding: 12px 20px;".toList, "margin: 8px 0;".toList, "display: inline-block;".toList,
    "border: 1px solid #ccc;".toList, "border-radius: 4px;".toList,
    "box-sizing: border-box;".toList, "\x7d".toList, "button \x7b".toList, "width: 100%;".toList,
    "background-color: #4CAF50;".toList, "color: white;".toList, "padding: 14px 20px;".toList,
    "margin: 8px 0;".toList, "border: none;".toList, "border-radius: 4px;".toList,
    "cursor: pointer;".toList, "\x7d".toList, "button \x7b".toList,
    "background-color: #45a049;".toList, "\x7d".toList, "div \x7b".toList,
    "border-radius: 5px;".toList, "background-color: #ffffff;".toList, "padding: 20px;".toList,
    "\x7d".toList, "</style>".toList,
    "<body> <div> <form id = \"meme_comment\" method = \"post\" action=\"".toList, location,
    "/comment_form\" onsubmit = \"runCode(event)\">".toList,
    "<label for=\"Comment\">Comment</label>".toList,
    "<input type=\"text\" id=\"Comment\" name=\"Comment\" placeholder=\"Your comment..\">".toList,
    "<label for=\"MemeID\">Meme ID</label>".toList,
    "<input type=\"text\" id=\"MemeID\" name=\"MemeID\" >".toList,
    "<label for=\"rating\">Rating</label>".toList, "<select id=\"rating\" name=\"rating\">".toList,
    "<option value = \"1\">1 </option>".toList, "<option value = \"2\">2</option>".toList,
    "<option value = \"3\">3</option>".toList, "<option value = \"4\">4</option>".toList,
    "<option value = \"5\">5</option>".toList, "</select>".toList,
    "<button type=\"submit\"> Submit</button>".toList, "</form> </div>".toList, "<script>".toList,
    "function runCode(event) \x7b".toList, "event.preventDefault(); ".toList,
    "var comment = document.getElementById(\"Comment\").value;".toList,
    "var id = document.getElementById(\"MemeID\").value;".toList,
    "var rating = document.querySelector('select[name=\"rating\"]').value;".toList,
    "var data = \x7b".toList, "comment: comment,".toList, "id: id,".toList, "rating:rating".toList,
    "\x7d;".toList, "var xhr = new XMLHttpRequest();".toList, "xhr.open(\"POST\", \"".toList,
    location, "/comment\", true);".toList,
    "xhr.setRequestHeader(\"Content-Type\", \"application/json\");".toList,
    "xhr.send(JSON.stringify(data))".toList, "\x7d".toList, "</script> </body> </html>".toList]

/-- `template_to_url_`; a template that is not in the map gets the empty string. -/
def templateToUrl (location template : Str) : Str :=
  let picture (name : Str) := "https://imgflip.com/s".toList ++ location ++ '/' :: name
  ([("Two-Buttons".toList, picture "Two-Buttons.jpg".toList),
    ("One-Does-Not-Simply".toList, picture "One-Does-Not-Simply.jpg".toList),
    ("Buff-Doge-vs-Cheems".toList, picture "Buff-Doge-vs-Cheems.png".toList),
    ("Drake-Hotline-Bling".toList, picture "Drake-Hotline-Bling.jpg".toList),
    ("Left-Exit-12-Off-Ramp".toList, picture "Left-Exit-12-Off-Ramp.jpg".toList),
    ("Mocking-Spongebob".toList, picture "Mocking-Spongebob.jpg".toList),
    ("Change-My-Mind".toList, picture "Change-My-Mind.jpg".toList)].lookup template).getD []

/-- `display_html_content`. -/
def displayPage {F : Type} (location : Str) (id : CInt) (meme : Meme F) : Str :=
  List.flatten [
    "<html>\n".toList, "<style>\n".toList,
    "body \x7b display: inline-block; position: relative; \x7d\n".toList,
    "span \x7b color: white; font: 2em bold Impact, sans-serif; position: absolute; ".toList,
    "text-align: center; width: 100%; \x7d\n".toList,
    "#top \x7b top: 0; color: blue;\x7d\n".toList,
    "#bottom \x7b bottom: 0; color: blue;\x7d\n".toList,
    "#subtitle \x7b".toList, "bottom: -100px; ".toList,
    "color: red; /* Choose your desired color */".toList, "font-size: 1.0em; ".toList,
    "\x7d".toList,
    "</style>\n".toList, "<body>\n".toList,
    "<img src=\"".toList, templateToUrl location meme.template, "\">\n".toList,
    "<br/>\n".toList,
    "<span id=\"top\">".toList, meme.top, "</span>\n".toList,
    "<span id=\"bottom\">".toList, meme.bottom, "</span>\n".toList,
    "<a id=\"subtitle\" href = \"".toList, location, "/info/".toList, toStr id, "\">".toList,
    "Viewed by: ".toList, toStr meme.viewCount, ". Click for more information< /a>\n".toList,
    "<span\n>\n".toList, "</body>\n".toList, "</html>\n".toList]

/-- The line of a meme in a listing. -/
def listLine {F : Type} (location : Str) (memes : MemeModule F) (id : CInt) : Str :=
  List.flatten [
    "Number of views: ".toList, toStr (memes.getViewCount (MemeId.ofCInt id)),
    "   Link to meme: <a href=\"".toList, location, "/".toList, toStr id, "\">".toList, toStr id,
    "</a><br>".toList]

/-- The ids a listing goes through. -/
def listedIds {F : Type} (memes : MemeModule F) : List CInt :=
  (List.range memes.getMemeCount.val.toNat).map fun k => CInt.wrap (k + 1)

/-- A listing of the memes that pass a test. -/
def listPage {F : Type} (location : Str) (memes : MemeModule F) (shown : MemeId → Bool) : Str :=
  List.flatten [
    "<html> <style>".toList, "a:link \x7b".toList, "color: blue;".toList, "\x7d".toList,
    "a:hover \x7b".toList, "text-decoration: underline;".toList, "\x7d </style>".toList,
    "<body> <h2>List of memes</h2>".toList,
    ((listedIds memes).filter fun id => shown (MemeId.ofCInt id)).flatMap (listLine location memes),
    "<a href=\"".toList, location, "/comment_form\">Post a comment".toList,
    "</body> </html>".toList]

end MemeHandler

end SocialNetworkApp
